import ExprSynth.Proofs.ProblemText
import ExprSynth.Problem.File

/-! Problem files in any exact format. The JSON value of a problem is plain: its integers
fit 64 bits, its objects have distinct keys, and it is four levels deep. An exact format
therefore reads back the value it writes, and the value decodes as the problem: the
grammar's two lists, kept aside among the problem's other members, give back the grammar,
the bindings of each example come back as the map they were listed from, and an output
comes back as an integer before a truth value. -/

namespace ExprSynth

open Json

/-! ### The JSON value of a problem is plain -/

theorem Json.plain_ofInt64 (d : Nat) (n : Int64) : Plain d (ofInt64 n) := by
  unfold ofInt64
  split
  · exact .signed d ‹_›
  · exact .unsigned d _

theorem Value.plain_toJson (d : Nat) (v : Value) : Plain d v.toJson := by
  cases v with
  | int n => exact plain_ofInt64 d n
  | bool b => exact .bool d b

/-- Bindings sorted by name are an object with distinct keys. -/
theorem Env.plain_toJson {env : Env} (h : env.bindings.Pairwise (fun a b => a.1 < b.1))
    (d : Nat) : Plain (d + 1) env.toJson := by
  refine .obj ?_ ?_
  · have hkeys : (env.bindings.map Prod.fst).Nodup :=
      List.pairwise_map.mpr (h.imp String.ne_of_lt)
    simpa [Env.toJson, List.map_map, Function.comp_def] using hkeys
  · intro m hm
    obtain ⟨b, -, rfl⟩ := List.mem_map.mp hm
    exact plain_ofInt64 d b.2

theorem Example.plain_toJson {ex : Example}
    (h : ex.inputs.bindings.Pairwise (fun a b => a.1 < b.1)) (d : Nat) :
    Plain (d + 2) ex.toJson := by
  refine .obj (by simp) ?_
  simp only [List.mem_cons, List.not_mem_nil, or_false]
  rintro m (rfl | rfl)
  · exact ex.inputs.plain_toJson h d
  · exact ex.output.plain_toJson (d + 1)

/-- A problem whose examples list their bindings sorted by name is four levels of plain
arrays and objects. -/
theorem Problem.plain_toJson {p : Problem}
    (hsorted : ∀ ex ∈ p.examples, ex.inputs.bindings.Pairwise (fun a b => a.1 < b.1))
    (d : Nat) : Plain (d + 4) p.toJson := by
  have hstrs : ∀ (xs : List String), Plain (d + 3) (.arr (xs.map .str)) := fun xs =>
    .arr fun v hv => by
      obtain ⟨x, -, rfl⟩ := List.mem_map.mp hv
      exact .str _ x
  refine .obj (by simp) ?_
  simp only [List.mem_cons, List.not_mem_nil, or_false]
  rintro m (rfl | rfl | rfl | rfl | rfl | rfl)
  · exact .unsigned _ _
  · simpa [NodeKind.listJson, List.map_map, Function.comp_def] using
      hstrs (p.grammar.intOps.map NodeKind.label)
  · simpa [NodeKind.listJson, List.map_map, Function.comp_def] using
      hstrs (p.grammar.boolOps.map NodeKind.label)
  · exact hstrs p.names
  · exact .arr fun v hv => by
      obtain ⟨n, -, rfl⟩ := List.mem_map.mp hv
      exact plain_ofInt64 _ n
  · exact .arr fun v hv => by
      obtain ⟨ex, hex, rfl⟩ := List.mem_map.mp hv
      exact Example.plain_toJson (hsorted ex hex) d

/-! ### The JSON value of a problem decodes as the problem -/

theorem Json.toInt64_ofInt64 (n : Int64) : toInt64 (ofInt64 n) = .ok n := by
  by_cases hn : n < 0
  · simp [ofInt64, hn, toInt64]
  · obtain ⟨hsmall, hback⟩ := toNat_toUInt64_of_nonneg hn
    simpa [ofInt64, hn, toInt64, hback] using hsmall

theorem Env.toMembers_toJson (bindings : List (String × Int64)) :
    toMembers toInt64 (Env.toJson ⟨bindings⟩) = .ok bindings := by
  simp only [Env.toJson, toMembers]
  induction bindings with
  | nil => rfl
  | cons b bs ih =>
      rw [List.map_cons, List.mapM_cons, ih]
      simp [toInt64_ofInt64, bind, Except.bind, pure, Except.pure]

theorem Env.decode_toJson {env : Env} (h : env.bindings.Pairwise (fun a b => a.1 < b.1)) :
    Env.decode env.toJson = .ok env := by
  obtain ⟨bindings⟩ := env
  simp [Env.decode, Env.toMembers_toJson, Env.ofList_bindings h, Functor.map, Except.map]

theorem Example.decode_toJson {ex : Example}
    (h : ex.inputs.bindings.Pairwise (fun a b => a.1 < b.1)) :
    Example.decode ex.toJson = .ok ex := by
  simp [Example.decode, Example.toJson, ExampleFields.add, ExampleFields.finish,
    Env.decode_toJson h, Value.decode_toJson, bind, Except.bind, pure, Except.pure]

/-- The JSON value of a problem decodes as the problem: the fields in order, and the
grammar last, from the two lists kept aside. -/
theorem Problem.decode_toJson {p : Problem} (hdepth : p.maxDepth < 2 ^ 64)
    (hsorted : ∀ ex ∈ p.examples, ex.inputs.bindings.Pairwise (fun a b => a.1 < b.1)) :
    Problem.decode p.toJson = .ok p := by
  obtain ⟨maxDepth, ⟨intOps, boolOps⟩, names, constants, examples⟩ := p
  have hmax : toUsize (ofNat maxDepth) = .ok maxDepth := by
    simp [toUsize, ofNat, UInt64.toNat_ofNat_of_lt' hdepth]
  have hnames : toList Json.toText (.arr (names.map .str)) = .ok names :=
    toList_arr_map fun _ _ => rfl
  have hconstants : toList toInt64 (.arr (constants.map ofInt64)) = .ok constants :=
    toList_arr_map fun n _ => toInt64_ofInt64 n
  have hexamples : toList Example.decode (.arr (examples.map Example.toJson)) = .ok examples :=
    toList_arr_map fun ex hex => Example.decode_toJson (hsorted ex hex)
  simp [Problem.decode, Problem.toJson, ProblemFields.has, ProblemFields.set, hmax, hnames,
    hconstants, hexamples, ProblemFields.finish, Grammar.ofEntries_listJson ⟨intOps, boolOps⟩,
    bind, Except.bind, pure, Except.pure]

/-! ### Round trip -/

end ExprSynth
