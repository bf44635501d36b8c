import ExprSynth.Proofs.Completeness

/-! The faults of a problem. Before it searches, a synthesis checks its problem: a positive
depth bound, at least one example, every variable bound by every example, `Variable` and
`IfThenElse` each in one list at most, and `Variable` placed when there are variables. It
fails exactly when one of these checks fails, with the error of the first in that order. An
operator of fixed signature may be listed in both lists, and once the checks pass no
evaluation fails: seeding needs only the bindings the checks asked for, and the search is
sort-sound. -/

namespace ExprSynth

/-- The first of `names`, in their order, that the example leaves unbound. -/
def Example.unbound? (ex : Example) (names : List String) : Option String :=
  names.find? fun v => !ex.inputs.contains v

theorem Example.unbound?_eq_none {ex : Example} {names : List String} :
    ex.unbound? names = none ↔ ∀ v ∈ names, ex.inputs.contains v := by
  simp [Example.unbound?, List.find?_eq_none]

namespace Problem

/-- The least index of an example that leaves one of the problem's variables unbound, with
the first variable it leaves unbound. -/
def unbound? (p : Problem) : Option (Nat × String) :=
  (p.examples.findIdx? fun ex => (ex.unbound? p.names).isSome).bind fun i =>
    (p.examples[i]?.bind (·.unbound? p.names)).map (i, ·)

/-- The checks a problem must pass before its search, in the order they are made: each is
the error the problem is rejected with when it fails the check, `none` when it passes. -/
def faults (p : Problem) : List (Option ConfigError) :=
  [if p.maxDepth = 0 then some .zeroDepth else none,
   if p.examples = [] then some .emptyExamples else none,
   p.unbound?.map fun (i, v) => .unboundVariable i v,
   if NodeKind.variable ∈ p.grammar.intOps ∧ NodeKind.variable ∈ p.grammar.boolOps then
     some (.ambiguousSort .variable) else none,
   if NodeKind.ifThenElse ∈ p.grammar.intOps ∧ NodeKind.ifThenElse ∈ p.grammar.boolOps then
     some (.ambiguousSort .ifThenElse) else none,
   if p.names ≠ [] ∧ NodeKind.variable ∉ p.grammar.intOps ∧
       NodeKind.variable ∉ p.grammar.boolOps then
     some .unplacedVariable else none]

/-- The error of the first check the problem fails, if it fails one. -/
def firstFault (p : Problem) : Option ConfigError :=
  p.faults.findSome? id

/-- `firstUnbound` finds the least index of an example that leaves a variable unbound,
counting from the index it is given. -/
theorem firstUnbound_eq (names : List String) : ∀ (k : Nat) (exs : List Example),
    firstUnbound names k exs =
      ((exs.findIdx? fun ex => (ex.unbound? names).isSome).bind fun i =>
        (exs[i]?.bind (·.unbound? names)).map (k + i, ·))
  | _, [] => rfl
  | k, ex :: rest => by
      rw [firstUnbound]
      cases h : names.find? fun v => !ex.inputs.contains v with
      | some v => simp [Example.unbound?, h, List.findIdx?_cons]
      | none =>
          rw [firstUnbound_eq names (k + 1) rest]
          simp [Example.unbound?, h, List.findIdx?_cons, Option.bind_map,
            Nat.add_right_comm k 1, Nat.add_assoc]

theorem firstUnbound_eq_unbound? (p : Problem) :
    firstUnbound p.names 0 p.examples = p.unbound? := by
  simp [firstUnbound_eq, unbound?]

theorem unbound?_eq_none {p : Problem} :
    p.unbound? = none ↔ ∀ ex ∈ p.examples, ∀ v ∈ p.names, ex.inputs.contains v := by
  have hidx : p.unbound? = none ↔
      (p.examples.findIdx? fun ex => (ex.unbound? p.names).isSome) = none := by
    unfold unbound?
    cases hi : p.examples.findIdx? fun ex => (ex.unbound? p.names).isSome with
    | none => simp
    | some i =>
        -- the example found leaves a variable unbound, and that variable is reported
        obtain ⟨hlt, hsome, -⟩ := List.findIdx?_eq_some_iff_getElem.mp hi
        obtain ⟨v, hv⟩ := Option.isSome_iff_exists.mp hsome
        simp [List.getElem?_eq_getElem hlt, hv]
  rw [hidx, List.findIdx?_eq_none_iff]
  simp only [Option.isSome_eq_false_iff, Option.isNone_iff_eq_none, Example.unbound?_eq_none]

theorem validate_ok {p : Problem} (h : p.validate = .ok ()) :
    p.maxDepth ≠ 0 ∧ p.examples ≠ [] ∧ p.unbound? = none := by
  unfold validate at h
  rw [firstUnbound_eq_unbound?] at h
  split at h
  · cases h
  split at h
  · cases h
  rename_i hd he
  split at h
  · cases h
  rename_i hu
  exact ⟨hd, by simpa using he, by simpa using hu⟩

/-- A problem that `validate` rejects fails one of the first three checks, and the error is
that of the first. -/
theorem firstFault_of_validate {p : Problem} {c : ConfigError} (h : p.validate = .error c) :
    p.firstFault = some c := by
  unfold validate at h
  rw [firstUnbound_eq_unbound?] at h
  split at h
  · cases h
    simp [firstFault, faults, *]
  split at h
  · cases h
    simp_all [firstFault, faults]
  rename_i hd he
  split at h
  · rename_i i v hu
    cases h
    simp_all [firstFault, faults]
  · cases h

end Problem

namespace Grammar

theorem placement_eq_error {g : Grammar} {kind : NodeKind} {c : ConfigError} :
    g.placement kind = .error c ↔
      (kind ∈ g.intOps ∧ kind ∈ g.boolOps) ∧ c = .ambiguousSort kind := by
  unfold placement
  cases hi : g.intOps.contains kind <;> cases hb : g.boolOps.contains kind <;>
    simp_all [eq_comm]

theorem placement_eq_none {g : Grammar} {kind : NodeKind} :
    g.placement kind = .ok none ↔ kind ∉ g.intOps ∧ kind ∉ g.boolOps := by
  unfold placement
  cases hi : g.intOps.contains kind <;> cases hb : g.boolOps.contains kind <;> simp_all

/-- Only an operator that takes its family from its list fails to resolve, and only when it
is in both lists. -/
theorem resolveKind_eq_error {g : Grammar} {kind : NodeKind} {c : ConfigError} :
    g.resolveKind kind = .error c ↔
      kind.fixedSignature? = none ∧ g.placement kind = .error c := by
  unfold resolveKind
  split
  · -- a disabled operator is in neither list, so its placement passes
    rename_i hen
    simp only [reduceCtorEq, false_iff, not_and]
    intro _ hp
    obtain ⟨⟨hi, -⟩, -⟩ := placement_eq_error.mp hp
    simp [enabled, hi] at hen
  split
  · simp_all
  rename_i hfix
  cases hp : g.placement kind with
  | error e => simp [hfix, bind, Except.bind]
  | ok ty => cases ty <;> simp [hfix, bind, Except.bind, pure, Except.pure]

/-- Resolving operators in order fails with the error of the first that fails. When only
`kind` can fail, the whole fails exactly when `kind` is among the operators and fails. -/
theorem resolveAll_eq_error_of_unique {g : Grammar} {kind : NodeKind} {c : ConfigError}
    {kinds : List NodeKind} (hok : ∀ k ∈ kinds, k ≠ kind → ∃ op, g.resolveKind k = .ok op) :
    g.resolveAll kinds = .error c ↔ kind ∈ kinds ∧ g.resolveKind kind = .error c := by
  induction kinds with
  | nil => simp [resolveAll]
  | cons k rest ih =>
      have ih := ih fun k' hk' => hok k' (List.mem_cons_of_mem k hk')
      by_cases hk : k = kind
      · subst hk
        cases hr : g.resolveKind k with
        | error e => simp [resolveAll, hr, bind, Except.bind]
        | ok op =>
            cases hall : g.resolveAll rest with
            | error e => simp_all [resolveAll, bind, Except.bind]
            | ok ops => simp_all [resolveAll, bind, Except.bind, pure, Except.pure]
      · obtain ⟨op, hop⟩ := hok k List.mem_cons_self hk
        have hne : kind ≠ k := Ne.symm hk
        cases hall : g.resolveAll rest with
        | error e => simp_all [resolveAll, bind, Except.bind]
        | ok ops => simp_all [resolveAll, bind, Except.bind, pure, Except.pure]

/-- Resolving a grammar fails exactly when `Variable` is in both lists or, failing that,
`IfThenElse` is, with the error of the first. -/
theorem resolve_eq_error {g : Grammar} {c : ConfigError} :
    g.resolve = .error c ↔
      g.placement .variable = .error c ∨
        (∃ ty, g.placement .variable = .ok ty) ∧ g.placement .ifThenElse = .error c := by
  unfold resolve
  cases hvar : g.placement .variable with
  | error e => simp [bind, Except.bind]
  | ok ty =>
      -- with `Variable` placed, the conditional is the one operator of the catalog that fails
      have hok : ∀ k ∈ NodeKind.all, k ≠ .ifThenElse → ∃ op, g.resolveKind k = .ok op := by
        intro k _ hne
        cases hr : g.resolveKind k with
        | ok op => exact ⟨op, rfl⟩
        | error e =>
            obtain ⟨hfix, hp⟩ := resolveKind_eq_error.mp hr
            cases k <;> simp_all [NodeKind.fixedSignature?]
      have hall := resolveAll_eq_error_of_unique (c := c) hok
      rw [resolveKind_eq_error] at hall
      cases hr : g.resolveAll NodeKind.all with
      | error e => simp_all [bind, Except.bind, NodeKind.all, NodeKind.fixedSignature?]
      | ok ops =>
          simp_all [bind, Except.bind, pure, Except.pure, NodeKind.all, NodeKind.fixedSignature?]

theorem resolve_variableTy {g : Grammar} {rg : ResolvedGrammar} (h : g.resolve = .ok rg) :
    g.placement .variable = .ok rg.variableTy := by
  unfold resolve at h
  obtain ⟨ty, hty, h⟩ := Except.bind_eq_ok.mp h
  obtain ⟨ops, -, h⟩ := Except.bind_eq_ok.mp h
  cases h
  exact hty

/-- A grammar that resolves lists neither `Variable` nor `IfThenElse` twice. -/
theorem resolve_ok {g : Grammar} {rg : ResolvedGrammar} (h : g.resolve = .ok rg) :
    ¬(NodeKind.variable ∈ g.intOps ∧ NodeKind.variable ∈ g.boolOps) ∧
      ¬(NodeKind.ifThenElse ∈ g.intOps ∧ NodeKind.ifThenElse ∈ g.boolOps) := by
  have hne : ∀ c, g.resolve ≠ .error c := fun c he => by rw [h] at he; cases he
  constructor
  · intro hb
    exact hne _ (resolve_eq_error.mpr (.inl (placement_eq_error.mpr ⟨hb, rfl⟩)))
  · intro hb
    exact hne _ (resolve_eq_error.mpr
      (.inr ⟨⟨_, resolve_variableTy h⟩, placement_eq_error.mpr ⟨hb, rfl⟩⟩))

end Grammar

theorem variableTyOf_eq_error {g : ResolvedGrammar} {names : List String} {c : ConfigError} :
    variableTyOf g names = .error c ↔
      g.variableTy = none ∧ names ≠ [] ∧ c = .unplacedVariable := by
  unfold variableTyOf
  cases g.variableTy with
  | some ty => simp
  | none => cases names <;> simp [eq_comm]

namespace Problem

theorem firstFault_of_resolve {p : Problem} {c : ConfigError} (hv : p.validate = .ok ())
    (hg : p.grammar.resolve = .error c) : p.firstFault = some c := by
  obtain ⟨hd, he, hu⟩ := validate_ok hv
  rcases Grammar.resolve_eq_error.mp hg with hvar | ⟨⟨ty, hvar⟩, hite⟩
  · obtain ⟨hboth, rfl⟩ := Grammar.placement_eq_error.mp hvar
    simp [firstFault, faults, hd, he, hu, hboth]
  · obtain ⟨hboth, rfl⟩ := Grammar.placement_eq_error.mp hite
    have hone : ¬(NodeKind.variable ∈ p.grammar.intOps ∧ NodeKind.variable ∈ p.grammar.boolOps) :=
      fun hb => by rw [Grammar.placement_eq_error.mpr ⟨hb, rfl⟩] at hvar; cases hvar
    simp [firstFault, faults, hd, he, hu, hone, hboth]

theorem firstFault_of_variableTyOf {p : Problem} {rg : ResolvedGrammar} {c : ConfigError}
    (hv : p.validate = .ok ()) (hg : p.grammar.resolve = .ok rg)
    (hty : variableTyOf rg p.names = .error c) : p.firstFault = some c := by
  obtain ⟨hd, he, hu⟩ := validate_ok hv
  obtain ⟨-, hite⟩ := Grammar.resolve_ok hg
  obtain ⟨hnone, hnames, rfl⟩ := variableTyOf_eq_error.mp hty
  have hplaced := Grammar.resolve_variableTy hg
  rw [hnone, Grammar.placement_eq_none] at hplaced
  simp [firstFault, faults, hd, he, hu, hite, hnames, hplaced]

/-- A problem that passes the checks of a synthesis fails none of its checks. -/
theorem firstFault_of_checks {p : Problem} {rg : ResolvedGrammar} {ty : Ty}
    (hv : p.validate = .ok ()) (hg : p.grammar.resolve = .ok rg)
    (hty : variableTyOf rg p.names = .ok ty) : p.firstFault = none := by
  obtain ⟨hd, he, hu⟩ := validate_ok hv
  obtain ⟨hvar, hite⟩ := Grammar.resolve_ok hg
  have hplaced : ¬(p.names ≠ [] ∧ NodeKind.variable ∉ p.grammar.intOps ∧
      NodeKind.variable ∉ p.grammar.boolOps) := by
    rintro ⟨hnames, hi, hb⟩
    have hnone : rg.variableTy = none := by
      have h := Grammar.resolve_variableTy hg
      rw [Grammar.placement_eq_none.mpr ⟨hi, hb⟩] at h
      exact (Except.ok.inj h).symm
    have h := variableTyOf_eq_error.mpr ⟨hnone, hnames, rfl⟩
    rw [hty] at h
    cases h
  simp [firstFault, faults, hd, he, hu, hvar, hite, hplaced]

end Problem

theorem Except.mapM_total {ε α β : Type} {f : α → Except ε β} {xs : List α}
    (h : ∀ x ∈ xs, ∃ y, f x = .ok y) : ∃ ys, xs.mapM f = .ok ys := by
  induction xs with
  | nil => exact ⟨[], rfl⟩
  | cons x xs ih =>
      obtain ⟨y, hy⟩ := h x List.mem_cons_self
      obtain ⟨ys, hys⟩ := ih fun x' hx' => h x' (List.mem_cons_of_mem x hx')
      exact ⟨y :: ys, by simp [List.mapM_cons, hy, hys, bind, Except.bind, pure, Except.pure]⟩

/-- A batch whose items all build has no failure. -/
theorem Bank.insertAllFrom_failure {α ε : Type} {build : α → Except ε Candidate} {items : List α}
    (hbuild : ∀ x ∈ items, ∃ c, build x = .ok c) (acc : Batch ε) (h : acc.failure = none) :
    (Bank.insertAllFrom build acc items).failure = none := by
  induction items generalizing acc with
  | nil => exact h
  | cons item rest ih =>
      obtain ⟨bank, observed, pulled, failure⟩ := acc
      obtain ⟨c, hc⟩ := hbuild item List.mem_cons_self
      simp only [Bank.insertAllFrom]
      split
      · exact h
      simp only [hc]
      exact ih (fun x hx => hbuild x (List.mem_cons_of_mem item hx)) _ rfl

/-- Every terminal has a value on the examples when they bind its variables. -/
theorem Candidate.ofExpr_seed {t : Terminals} {exs : List Example}
    (hbound : ∀ ex ∈ exs, ∀ v ∈ t.names, ex.inputs.contains v) {x : Expr × Ty}
    (hx : x ∈ Enumerator.seeds t) : ∃ c, Candidate.ofExpr x.1 x.2 exs = .ok c := by
  have heval : ∀ ex ∈ exs, ∃ val, x.1.eval ex.inputs = .ok val := by
    intro ex hex
    simp only [Enumerator.seeds, List.mem_append, List.mem_map, List.mem_singleton] at hx
    rcases hx with (⟨n, -, rfl⟩ | ⟨v, hv, rfl⟩) | rfl
    · exact ⟨_, rfl⟩
    · obtain ⟨b, hb⟩ := Option.isSome_iff_exists.mp (hbound ex hex v hv)
      exact ⟨Value.ofBinding t.variableTy b, by simp [Expr.eval, hb]⟩
    · exact ⟨_, rfl⟩
  obtain ⟨outs, houts⟩ := Except.mapM_total heval
  exact ⟨Candidate.ofOutputs x.1 x.2 (exs.map (·.output)) outs,
    by simp [Candidate.ofExpr, houts, bind, Except.bind, pure, Except.pure]⟩

/-- A search starts when every example binds every variable among its terminals. -/
theorem Enumerator.start_of_bound {g : ResolvedGrammar} {t : Terminals} {exs : List Example}
    {m : Nat} {policy : Policy} {tb : TieBreak}
    (hbound : ∀ ex ∈ exs, ∀ v ∈ t.names, ex.inputs.contains v) :
    ∃ e, Enumerator.start g t exs m policy tb = .ok e := by
  have hfail := Bank.insertAllFrom_failure (fun x hx => Candidate.ofExpr_seed hbound hx)
    ⟨Bank.empty tb, #[], 0, none⟩ rfl
  unfold Enumerator.start
  dsimp only
  simp only [Bank.insertAll, hfail]
  exact ⟨_, rfl⟩

/-- A problem that fails a check is rejected with the error of the first it fails. -/
theorem synthesize_of_firstFault {p : Problem} {policy : Policy} {tb : TieBreak}
    {c : ConfigError} (h : p.firstFault = some c) :
    synthesize p policy tb = .error (.config c) := by
  cases hv : p.validate with
  | error c' =>
      rw [Problem.firstFault_of_validate hv] at h
      cases h
      simp [synthesize, hv, Except.mapError, bind, Except.bind]
  | ok u =>
  cases hg : p.grammar.resolve with
  | error c' =>
      rw [Problem.firstFault_of_resolve hv hg] at h
      cases h
      simp [synthesize, hv, hg, Except.mapError, bind, Except.bind]
  | ok rg =>
  cases hty : variableTyOf rg p.names with
  | error c' =>
      rw [Problem.firstFault_of_variableTyOf hv hg hty] at h
      cases h
      simp [synthesize, hv, hg, hty, Except.mapError, bind, Except.bind]
  | ok ty =>
      rw [Problem.firstFault_of_checks hv hg hty] at h
      cases h

/-- A problem that passes every check is synthesized: the terminals seed and the search
runs to its end without an evaluation error. -/
theorem synthesize_ok_of_firstFault {p : Problem} {policy : Policy} {tb : TieBreak}
    (h : p.firstFault = none) : ∃ s, synthesize p policy tb = .ok s := by
  cases hv : p.validate with
  | error c =>
      rw [Problem.firstFault_of_validate hv] at h
      cases h
  | ok u =>
  cases hg : p.grammar.resolve with
  | error c =>
      rw [Problem.firstFault_of_resolve hv hg] at h
      cases h
  | ok rg =>
  cases hty : variableTyOf rg p.names with
  | error c =>
      rw [Problem.firstFault_of_variableTyOf hv hg hty] at h
      cases h
  | ok ty =>
  obtain ⟨-, -, hu⟩ := Problem.validate_ok hv
  obtain ⟨e, hs⟩ : ∃ e, Enumerator.start rg ⟨p.constants, p.names, ty⟩ p.examples p.maxDepth
      policy tb = .ok e := Enumerator.start_of_bound (Problem.unbound?_eq_none.mp hu)
  obtain ⟨r, hr⟩ := Enumerator.run_ok_of_preserves (fun _ h => h.step)
    (Enumerator.start_sortedSearch hg hs)
  exact ⟨⟨(r.1.map (·.expr)).elim .noSolution .found, r.2⟩, by
    simp [synthesize, hv, hg, hty, hs, hr, Except.mapError, bind, Except.bind, pure, Except.pure]⟩

/-- The errors of synthesis, under every policy and tie break. A synthesis fails exactly
when its problem fails one of its checks: a positive depth bound, at least one example, the
variables bound by every example, neither `Variable` nor `IfThenElse` in both lists, and
`Variable` placed when there are variables. It fails with the error of the first check
failed, and never with an evaluation error. -/
theorem synthesize_error_iff_firstFault (p : Problem) (policy : Policy) (tb : TieBreak)
    (err : SynthError) :
    synthesize p policy tb = .error err ↔ ∃ c, p.firstFault = some c ∧ err = .config c := by
  cases hf : p.firstFault with
  | some c =>
      rw [synthesize_of_firstFault hf]
      simp [eq_comm]
  | none =>
      obtain ⟨s, hs⟩ : ∃ s, synthesize p policy tb = .ok s := synthesize_ok_of_firstFault hf
      simp [hs]

example : (⟨1, ⟨[.plus, .ifThenElse], [.ifThenElse]⟩, ["x"], [],
    [⟨Env.empty, .int 0⟩]⟩ : Problem).firstFault = some (.unboundVariable 0 "x") := by
  decide

end ExprSynth
