import ExprSynth.Proofs.SortSoundness
import ExprSynth.Proofs.Compositional
import ExprSynth.Search.Language
import ExprSynth.Synthesis

/-! Completeness of the type-directed search. The bank keeps one candidate per list of
values, so it cannot hold every expression of the language; it holds their values. Up to
the depth reached, every expression of the language has its values retained, each of its
family, unless a winner is set. The argument is by layers: the children of a node one
layer deeper have their values in the bank when the layer starts, so the pools of the
node's operator offer a tuple with the same values at its turn, and by compositionality
the candidate built from that tuple has the node's values. Since no retained candidate
succeeds, no expression of the language at most as deep as the search went reproduces the
examples unless the search found a winner. -/
namespace ExprSynth

/-! ### Values accounted for by a bank -/

namespace Bank

/-- The bank accounts for the expression `x` of family `ty`: a winner is set, or the
values of `x` on the examples are retained, each of family `ty`. -/
def Covers (b : Bank) (exs : List Example) (x : Expr) (ty : Ty) : Prop :=
  b.winner.isSome ∨ ∃ vs ∈ b.keys, x.evalAll exs = vs.map .ok ∧ ∀ v ∈ vs, v.ty = ty

variable {exs : List Example} {x : Expr} {ty : Ty}

theorem Covers.mono {b b' : Bank} (hb : b.WellFormed) (run : b.Reaches b')
    (h : b.Covers exs x ty) : b'.Covers exs x ty := by
  rcases h with hw | ⟨vs, hvs, hx, hty⟩
  · rw [run.eq_of_winner hw]
    exact .inl hw
  · exact .inr ⟨vs, run.keys_subset hb vs hvs, hx, hty⟩

/-- After an insertion the inserted values are retained, unless a winner is set, whatever
the bank does with the candidate. -/
theorem WellFormed.mem_keys_insert {b : Bank} (hb : b.WellFormed) (c : Candidate) :
    (b.insert c).1.winner.isSome ∨ c.outputs ∈ (b.insert c).1.keys := by
  rcases hb.insert_cases c with ⟨hw, h⟩ | ⟨-, -, h⟩ | ⟨-, -, -, h⟩ |
      ⟨pos, old, -, -, hold, hout, ⟨-, h⟩ | ⟨-, h⟩⟩ <;> rw [h]
  · exact .inl hw
  · exact .inl rfl
  · exact .inr (by simp)
  · -- the equivalent retained candidate stays, with the same values
    rw [← hout]
    exact .inr (List.mem_map_of_mem (List.mem_of_getElem? hold))
  · exact .inr (by simp)

theorem WellFormed.covers_insert {b : Bank} (hb : b.WellFormed) {c : Candidate}
    (hx : x.evalAll exs = c.outputs.map .ok) (hty : ∀ v ∈ c.outputs, v.ty = ty) :
    (b.insert c).1.Covers exs x ty := by
  rcases hb.mem_keys_insert c with hw | hmem
  · exact .inl hw
  · exact .inr ⟨c.outputs, hmem, hx, hty⟩

/-- A bank without winner that accounts for `x` shows that `x` does not reproduce the
examples: its values are retained, and no retained candidate succeeds. -/
theorem Covers.not_reproduces {b : Bank} (hb : b.WellFormed)
    (hf : b.All (Candidate.Faithful exs)) (hw : b.winner = none) (h : b.Covers exs x ty) :
    ¬ x.Reproduces exs := by
  intro hrep
  rcases h with hsome | ⟨vs, hvs, hx, -⟩
  · simp [hw] at hsome
  · obtain ⟨c, hc, rfl⟩ := List.mem_map.mp hvs
    have hout : c.outputs = exs.map (·.output) := by
      rw [Expr.reproduces_iff, hx] at hrep
      exact List.map_injective_iff.mpr (fun _ _ h => Except.ok.inj h) hrep
    have hsuccess := (hf.1 c hc).success
    rw [hb.unsuccessful c hc, hout] at hsuccess
    simp at hsuccess

end Bank

/-! ### Depths of nodes -/

theorem NodeKind.depth_lt_of_build {kind : NodeKind} {children : List Expr} {x : Expr}
    (hb : kind.build children = .ok x) : ∀ y ∈ children, y.depth < x.depth := by
  rcases build_cases hb with ⟨op, l, r, -, rfl, rfl⟩ | ⟨a, -, rfl, rfl⟩ |
    ⟨c, t, f, -, rfl, rfl⟩ <;> simp [Expr.depth] <;> omega

theorem NodeKind.one_lt_depth_of_build {kind : NodeKind} {children : List Expr} {x : Expr}
    (hb : kind.build children = .ok x) : 1 < x.depth := by
  rcases build_cases hb with ⟨op, l, r, -, rfl, rfl⟩ | ⟨a, -, rfl, rfl⟩ |
    ⟨c, t, f, -, rfl, rfl⟩ <;> simp [Expr.depth] <;> grind [Expr.depth_pos]

theorem DerivesAll.forall₂ {g : ResolvedGrammar} {t : Terminals} :
    {es : List Expr} → {tys : List Ty} → DerivesAll g t es tys →
      List.Forall₂ (Derives g t) es tys
  | _, _, .nil => .nil
  | _, _, .cons head tail => .cons head (DerivesAll.forall₂ tail)

/-! ### Tuples with the values of covered children -/

/-- Children that a bank without winner accounts for have the values of a tuple of the
type-directed pools of that bank, when there is at least one example. -/
theorem Bank.exists_tuple {b : Bank} {exs : List Example} (hne : exs ≠ [])
    (hsorted : b.All (Candidate.Sorted exs)) (hw : b.winner = none) :
    ∀ {children : List Expr} {tys : List Ty},
      List.Forall₂ (fun x ty => b.Covers exs x ty) children tys →
      ∃ args, List.Forall₂ (· ∈ ·) args (tys.map b.poolOf) ∧
        List.Forall₂ (fun (x : Expr) (a : Candidate) => x.evalAll exs = a.outputs.map .ok)
          children args := by
  intro children tys hcovers
  induction hcovers with
  | nil => exact ⟨[], .nil, .nil⟩
  | @cons x ty _ _ hx _ ih =>
      obtain ⟨args, hpools, hvals⟩ := ih
      rcases hx with hsome | ⟨vs, hvs, hxv, hty⟩
      · simp [hw] at hsome
      obtain ⟨c, hc, rfl⟩ := List.mem_map.mp hvs
      -- one example suffices to read the family of a retained candidate off its values
      obtain ⟨ex, exs', rfl⟩ := List.exists_cons_of_ne_nil hne
      obtain ⟨v, hv⟩ : ∃ v, v ∈ c.outputs := by
        cases hout : c.outputs with
        | nil => simp [Expr.evalAll, hout] at hxv
        | cons v _ => exact ⟨v, by simp⟩
      have hcty : c.ty = ty := ((hsorted.1 c hc).values v hv).symm.trans (hty v hv)
      exact ⟨c :: args, .cons (Bank.mem_poolOf.mpr ⟨hc, hcty⟩) hpools, .cons hxv hvals⟩

/-! ### One layer -/

theorem Bank.All.imp {P Q : Candidate → Prop} {b : Bank} (h : ∀ c, P c → Q c)
    (hb : b.All P) : b.All Q :=
  ⟨fun c hc => h c (hb.1 c hc), fun w hw => h w (hb.2 w hw)⟩

theorem Policy.mem_toList_of_mem_tuples {p : Policy} {op : Operator} {b : Bank}
    {args : List Candidate} (hargs : args ∈ tuples (p.pools op b)) :
    ∀ a ∈ args, a ∈ b.toList := by
  intro a ha
  obtain ⟨i, hi, rfl⟩ := List.getElem_of_mem ha
  exact (mem_tuples_pools hargs i hi).1

theorem NodeKind.build_of_length {kind : NodeKind} {children : List Expr} {x : Expr}
    (hb : kind.build children = .ok x) {others : List Expr}
    (hlen : others.length = children.length) : ∃ y, kind.build others = .ok y := by
  rcases build_cases hb with ⟨op, l, r, rfl, rfl, -⟩ | ⟨a, rfl, rfl, -⟩ |
    ⟨c, t, f, rfl, rfl, -⟩
  · obtain ⟨l', r', rfl⟩ := List.length_eq_two.mp hlen
    exact ⟨.binop op l' r', by cases op <;> rfl⟩
  · obtain ⟨a', rfl⟩ := List.length_eq_one_iff.mp hlen
    exact ⟨.not a', rfl⟩
  · obtain ⟨c', t', f', rfl⟩ := List.length_eq_three.mp hlen
    exact ⟨.ite c' t' f', rfl⟩

theorem Counters.depth_recordAll (c : Counters) (observed : Array Insertion) :
    (c.recordAll observed).depth = c.depth := by
  unfold Counters.recordAll
  rw [← Array.foldl_toList]
  generalize observed.toList = l
  induction l generalizing c with
  | nil => rfl
  | cons i l ih => exact ih (c.record i)

/-- A batch that ends without failure accounts for every item it was given whose
candidate has the values of `x`: it inserted the candidate, or a winner stopped it. -/
theorem Bank.insertAllFrom_covers {α ε : Type} {build : α → Except ε Candidate}
    {exs : List Example} {x : Expr} {ty : Ty} {item : α}
    (hbuilt : ∀ c, build item = .ok c →
      x.evalAll exs = c.outputs.map .ok ∧ ∀ v ∈ c.outputs, v.ty = ty) :
    ∀ {acc : Batch ε} {items : List α}, item ∈ items → acc.bank.WellFormed →
      (insertAllFrom build acc items).failure = none →
      (insertAllFrom build acc items).bank.Covers exs x ty
  | _, [], hitem, _, _ => by cases hitem
  | ⟨bank, observed, pulled, failure⟩, i :: rest, hitem, hwf, hfail => by
      simp only [insertAllFrom] at hfail ⊢
      by_cases hw : bank.winner.isSome
      · simp only [hw, ↓reduceIte]
        exact .inl hw
      simp only [hw, Bool.false_eq_true, ↓reduceIte] at hfail ⊢
      cases hc : build i with
      | error err => simp [hc] at hfail
      | ok c =>
      simp only [hc] at hfail ⊢
      rcases List.mem_cons.mp hitem with rfl | hitem
      · exact (hwf.covers_insert (hbuilt c hc).1 (hbuilt c hc).2).mono (hwf.insert c)
          (reaches_insertAllFrom build ⟨(bank.insert c).1, _, _, none⟩ rest)
      · exact insertAllFrom_covers hbuilt hitem (hwf.insert c) hfail

/-- The terminals of the language are the seeds of the search, and they are the
expressions of the language of depth one. -/
theorem Derives.mem_seeds {g : ResolvedGrammar} {t : Terminals} {x : Expr} {ty : Ty}
    (h : Derives g t x ty) (hd : x.depth ≤ 1) : (x, ty) ∈ Enumerator.seeds t := by
  cases h with
  | const hn => simp [Enumerator.seeds, hn]
  | var hv => simp [Enumerator.seeds, hv]
  | falseLit => simp [Enumerator.seeds]
  | node _ _ hb _ =>
      have := NodeKind.one_lt_depth_of_build hb
      omega

namespace Enumerator

variable {exs : List Example}

theorem built_accurate {op : Operator} {policy : Policy} {b : Bank} {args : List Candidate}
    {c : Candidate} (hsig : op.kind.HasSignature op.args op.ret)
    (hb : b.All fun c => c.Sorted exs ∧ c.Faithful exs)
    (hargs : args ∈ tuples (policy.pools op b))
    (hnode : Candidate.node? op.kind op.ret (exs.map (·.output)) args = some (.ok c)) :
    c.Sorted exs ∧ c.Faithful exs := by
  obtain ⟨c', hc', hsorted⟩ := built_sorted hsig (hb.imp fun _ h => h.1) hargs hnode
  cases hc'
  have hfaithful : ∀ a ∈ args, a.Faithful exs :=
    fun a ha => (hb.1 a (Policy.mem_toList_of_mem_tuples hargs a ha)).2
  exact ⟨hsorted, (Candidate.node?_faithful hfaithful hnode).1⟩

/-- A returned layer over a bank of sorted, faithful candidates only inserts into it, and
sorted, faithful candidates only. -/
theorem addLayer_accurate {e e' : Enumerator}
    (hsig : ∀ op ∈ e.grammar.ops, op.kind.HasSignature op.args op.ret)
    (hs : e.bank.All fun c => c.Sorted e.examples ∧ c.Faithful e.examples)
    (h : e.addLayer = .ok e') :
    e.bank.Reaches e'.bank ∧ e'.bank.All fun c => c.Sorted e.examples ∧ c.Faithful e.examples :=
  addLayer_invariant (I := fun s => e.bank.Reaches s.1 ∧
      s.1.All fun c => c.Sorted e.examples ∧ c.Faithful e.examples)
    (fun _ _ hs op hop hturn => ⟨hs.1.trans (turn_reaches hturn),
      turn_all (fun _ hargs _ hnode => built_accurate (hsig op hop) hs.2 hargs hnode) hs.2 hturn⟩)
    ⟨.refl _, hs⟩ h

/-- The turn of `op` accounts for `x` when some tuple of its pools, taken when the turn
starts, builds a candidate with the values of `x`. -/
theorem turn_covers {expected : List Value} {policy : Policy} {s s' : Bank × Counters}
    {op : Operator} {args : List Candidate} {c : Candidate} {x : Expr} {ty : Ty}
    (hwf : s.1.WellFormed) (harity : op.arity ≠ 0) (hargs : args ∈ tuples (policy.pools op s.1))
    (hnode : Candidate.node? op.kind op.ret expected args = some (.ok c))
    (hx : x.evalAll exs = c.outputs.map .ok) (hty : ∀ v ∈ c.outputs, v.ty = ty)
    (h : turn expected policy s op = .ok s') : s'.1.Covers exs x ty := by
  unfold turn at h
  split at h
  · rename_i hskip
    cases h
    exact .inl (hskip.resolve_right harity)
  · rename_i hskip
    have hw : s.1.winner.isSome = false := by simpa using fun h => hskip (.inl h)
    rw [passOp_eq _ _ _ _ hw] at h
    -- the pass visits the tuple unless a winner is set first; later visits only insert
    refine foldlM_establishes (I := fun t : Bank × Counters => s.1.Reaches t.1)
      (Q := fun t : Bank × Counters => t.1.Covers exs x ty) ?_ ?_ hargs (.refl _) h
    · intro t t' ht other _ hstep
      have hreach : t.1.Reaches t'.1 := by
        split at hstep
        · cases hstep
          exact .refl _
        · exact visit_reaches hstep
      exact ⟨ht.trans hreach, fun hq => hq.mono (ht.wellFormed hwf) hreach⟩
    · intro t t' ht hstep
      split at hstep
      · cases hstep
        exact .inl ‹_›
      · simp only [visit, hnode] at hstep
        cases hstep
        exact (ht.wellFormed hwf).covers_insert hx hty

/-- A tuple of the pools with the values of the children of a node builds a candidate with
the node's values, each of the family the operator returns. -/
theorem node_of_tuple {policy : Policy} {b : Bank} {op : Operator} {children : List Expr}
    {x : Expr} {args : List Candidate} (hsig : op.kind.HasSignature op.args op.ret)
    (hb : b.All fun c => c.Sorted exs ∧ c.Faithful exs)
    (hargs : args ∈ tuples (policy.pools op b)) (hbuild : op.kind.build children = .ok x)
    (hvals : List.Forall₂ (fun (y : Expr) (a : Candidate) => y.evalAll exs = a.outputs.map .ok)
      children args) :
    ∃ c, Candidate.node? op.kind op.ret (exs.map (·.output)) args = some (.ok c) ∧
      x.evalAll exs = c.outputs.map .ok ∧ ∀ v ∈ c.outputs, v.ty = op.ret := by
  have hfaithful : ∀ a ∈ args, a.Faithful exs :=
    fun a ha => (hb.1 a (Policy.mem_toList_of_mem_tuples hargs a ha)).2
  -- the node over the tuple's expressions is built, with the values of `x`
  have hlen : (args.map (·.expr)).length = children.length := by simp [hvals.length_eq]
  obtain ⟨y, hy⟩ := NodeKind.build_of_length hbuild hlen
  have hyvals : Candidate.nodeOutputs op.kind (args.map (·.outputs)) = some (y.evalAll exs) :=
    Candidate.nodeOutputs_of_build hy (Candidate.forall₂_evalAll hfaithful)
  have hxvals : Candidate.nodeOutputs op.kind (args.map (·.outputs)) = some (x.evalAll exs) :=
    Candidate.nodeOutputs_of_build hbuild (List.forall₂_map_right_iff.mpr hvals)
  obtain ⟨r, hr⟩ : ∃ r, Candidate.node? op.kind op.ret (exs.map (·.output)) args = some r := by
    simp [Candidate.node?, hy, hyvals]
  obtain ⟨c, rfl, hsorted⟩ := built_sorted hsig (hb.imp fun _ h => h.1) hargs hr
  obtain ⟨hfc, hbc, hcty⟩ := Candidate.node?_faithful hfaithful hr
  have hcy : c.expr = y := Except.ok.inj (hbc.symm.trans hy)
  refine ⟨c, hr, ?_, fun v hv => (hsorted.values v hv).trans hcty⟩
  rw [Option.some.inj (hxvals.symm.trans hyvals), ← hcy]
  exact hfc.evals

/-- From a bank without winner that accounts for the children of a node of `op`, the
type-directed pools of `op` offer a tuple whose candidate has the node's values, each of
the family `op` returns. -/
theorem typeDirected_node {b : Bank} {op : Operator} {children : List Expr} {x : Expr}
    (hsig : op.kind.HasSignature op.args op.ret) (hne : exs ≠ [])
    (hb : b.All fun c => c.Sorted exs ∧ c.Faithful exs) (hw : b.winner = none)
    (hbuild : op.kind.build children = .ok x)
    (hchildren : List.Forall₂ (fun y ty => b.Covers exs y ty) children op.args) :
    ∃ args c, args ∈ tuples (Policy.typeDirected.pools op b) ∧
      Candidate.node? op.kind op.ret (exs.map (·.output)) args = some (.ok c) ∧
      x.evalAll exs = c.outputs.map .ok ∧ ∀ v ∈ c.outputs, v.ty = op.ret := by
  obtain ⟨args, hpools, hvals⟩ := b.exists_tuple hne (hb.imp fun _ h => h.1) hw hchildren
  have hargs : args ∈ tuples (Policy.typeDirected.pools op b) := mem_tuples.mpr hpools
  obtain ⟨c, hnode, hx, hty⟩ := node_of_tuple hsig hb hargs hbuild hvals
  exact ⟨args, c, hargs, hnode, hx, hty⟩

/-- One layer over a bank that accounts for the expressions of `L` up to depth `d` accounts
for them up to depth `d + 1`, when every expression of `L` deeper than one is a node of an
operator of the grammar over children in `L`, and at each operator's turn the pools offer the
values of every such node whose children the bank accounts for. The children are a layer
shallower, so accounted for when the layer starts, and later turns only insert. -/
theorem addLayer_covers_of {L : Expr → Ty → Prop} {e e' : Enumerator} {d : Nat}
    (hsig : ∀ op ∈ e.grammar.ops, op.kind.HasSignature op.args op.ret)
    (hwf : e.bank.WellFormed)
    (hs : e.bank.All fun c => c.Sorted e.examples ∧ c.Faithful e.examples) (hd : 0 < d)
    (hnode : ∀ x ty, L x ty → 1 < x.depth → ∃ op ∈ e.grammar.ops, ∃ children, 0 < op.arity ∧
      op.kind.build children = .ok x ∧ ty = op.ret ∧ List.Forall₂ L children op.args)
    (hoffer : ∀ s : Bank, e.bank.Reaches s →
      s.All (fun c => c.Sorted e.examples ∧ c.Faithful e.examples) → s.winner = none →
      ∀ op ∈ e.grammar.ops, ∀ children x, op.kind.build children = .ok x → L x op.ret →
      List.Forall₂ L children op.args →
      List.Forall₂ (fun y ty => s.Covers e.examples y ty) children op.args →
      ∃ args c, args ∈ tuples (e.policy.pools op s) ∧
        Candidate.node? op.kind op.ret e.expected args = some (.ok c) ∧
        x.evalAll e.examples = c.outputs.map .ok ∧ ∀ v ∈ c.outputs, v.ty = op.ret)
    (hcov : ∀ x ty, L x ty → x.depth ≤ d → e.bank.Covers e.examples x ty)
    (h : e.addLayer = .ok e') :
    ∀ x ty, L x ty → x.depth ≤ d + 1 → e'.bank.Covers e.examples x ty := by
  intro x ty hx hdepth
  by_cases hle : x.depth ≤ d
  · exact (hcov x ty hx hle).mono hwf (addLayer_accurate hsig hs h).1
  obtain ⟨op, hop, children, harity, hbuild, rfl, hlang⟩ := hnode x ty hx (by omega)
  -- the children are a layer shallower, so accounted for when the layer starts
  have hshallow : ∀ y ∈ children, y.depth ≤ d := fun y hy => by
    have := NodeKind.depth_lt_of_build hbuild y hy
    omega
  have hchildren : List.Forall₂ (fun y ty => e.bank.Covers e.examples y ty) children op.args :=
    ((List.forall₂_and_left _ _).mpr ⟨hshallow, hlang⟩).imp fun y ty h => hcov y ty h.2 h.1
  rw [addLayer_eq] at h
  obtain ⟨sf, hfold, h⟩ := Except.bind_eq_ok.mp h
  cases h
  -- every turn only inserts sorted, faithful candidates; the turn of `op` builds `x`
  refine foldlM_establishes (I := fun s => e.bank.Reaches s.1 ∧
      s.1.All fun c => c.Sorted e.examples ∧ c.Faithful e.examples)
    (Q := fun s => s.1.Covers e.examples x op.ret) ?_ ?_ hop ⟨.refl _, hs⟩ hfold
  · intro s s' hs' other hother hturn
    refine ⟨⟨hs'.1.trans (turn_reaches hturn), turn_all ?_ hs'.2 hturn⟩,
      fun hq => hq.mono (hs'.1.wellFormed hwf) (turn_reaches hturn)⟩
    exact fun _ hargs _ hnode => built_accurate (hsig other hother) hs'.2 hargs hnode
  · intro s s' hs' hturn
    cases hsw : s.1.winner with
    | some w =>
        have hkept : s.1.Reaches s'.1 := turn_reaches hturn
        rw [hkept.eq_of_winner (by simp [hsw])]
        exact .inl (by simp [hsw])
    | none =>
        obtain ⟨args, c, hargs, hnodec, hxc, hty⟩ := hoffer s.1 hs'.1 hs'.2 hsw op hop children x
          hbuild hx hlang (hchildren.imp fun y ty h => h.mono hwf hs'.1)
        exact turn_covers (hs'.1.wellFormed hwf) (by omega) hargs hnodec hxc hty hturn

/-! ### Runs of the search -/

/-- What a search keeps from its start about a language `L` of expressions: the operators
of its grammar have catalog signatures, its bank is well formed and holds sorted, faithful
candidates only, and up to its depth the bank accounts for every expression of `L`, while
no shallower one reproduces the examples. -/
structure Accounts (L : Expr → Ty → Prop) (e : Enumerator) : Prop where
  signed : ∀ op ∈ e.grammar.ops, op.kind.HasSignature op.args op.ret
  wellFormed : e.bank.WellFormed
  accurate : e.bank.All fun c => c.Sorted e.examples ∧ c.Faithful e.examples
  depth_pos : 0 < e.counters.depth
  covers : ∀ x ty, L x ty → x.depth ≤ e.counters.depth → e.bank.Covers e.examples x ty
  shallow : ∀ x ty, L x ty → x.depth < e.counters.depth → ¬ x.Reproduces e.examples

/-- What a type-directed search over the terminals `t` keeps from its start: there is an
example, and it accounts for the language of its grammar over `t`. -/
structure Exhaustive (t : Terminals) (e : Enumerator) : Prop where
  signed : ∀ op ∈ e.grammar.ops, op.kind.HasSignature op.args op.ret
  nonempty : e.examples ≠ []
  typeDirected : e.policy = .typeDirected
  wellFormed : e.bank.WellFormed
  accurate : e.bank.All fun c => c.Sorted e.examples ∧ c.Faithful e.examples
  depth_pos : 0 < e.counters.depth
  covers : ∀ x ty, Derives e.grammar t x ty → x.depth ≤ e.counters.depth →
    e.bank.Covers e.examples x ty
  shallow : ∀ x ty, Derives e.grammar t x ty → x.depth < e.counters.depth →
    ¬ x.Reproduces e.examples

theorem Exhaustive.accounts {t : Terminals} {e : Enumerator} (hinv : e.Exhaustive t) :
    e.Accounts (Derives e.grammar t) :=
  ⟨hinv.signed, hinv.wellFormed, hinv.accurate, hinv.depth_pos, hinv.covers, hinv.shallow⟩

theorem winner_of_searching {e : Enumerator} (h : e.phase = .searching) :
    e.bank.winner = none ∧ e.counters.depth < e.maxDepth := by
  unfold phase at h
  split at h
  · cases h
  · rename_i hw
    split at h
    · cases h
    · rename_i hd
      exact ⟨by simpa using hw, by omega⟩

/-- A search that is over without a winner reached its depth bound. -/
theorem maxDepth_le_of_not_searching {e : Enumerator} (h : e.phase ≠ .searching)
    (hw : e.bank.winner = none) : e.maxDepth ≤ e.counters.depth := by
  by_contra hlt
  apply h
  simp only [phase, hw, Option.isSome_none, Bool.false_eq_true, ↓reduceIte]
  rw [if_neg (by omega)]

section Accounts

variable {L : Expr → Ty → Prop}

/-- A step keeps an account of `L` when the layer it builds accounts for `L` one level
deeper; a step that builds a layer goes one deeper. -/
theorem Accounts.step {e e' : Enumerator} {phase : Phase} (hinv : e.Accounts L)
    (hlayer : ∀ e₁, e.phase = .searching → e.addLayer = .ok e₁ →
      ∀ x ty, L x ty → x.depth ≤ e.counters.depth + 1 → e₁.bank.Covers e.examples x ty)
    (h : e.step = .ok (e', phase)) :
    e'.Accounts L ∧ (e.phase = .searching → e'.counters.depth = e.counters.depth + 1) := by
  rcases step_cases h with ⟨hphase, rfl⟩ | ⟨hphase, e₁, h₁, rfl⟩
  · exact ⟨hinv, fun h => absurd h hphase⟩
  obtain ⟨hw, -⟩ := winner_of_searching hphase
  obtain ⟨hg, hx, -, -, hd⟩ := addLayer_fields h₁
  obtain ⟨hreach, hacc⟩ := addLayer_accurate hinv.signed hinv.accurate h₁
  have hcov := hlayer e₁ hphase h₁
  refine ⟨⟨?_, hreach.wellFormed hinv.wellFormed, ?_, by simp, ?_, ?_⟩, fun _ => by simp [hd]⟩
  · rw [hg]
    exact hinv.signed
  · rw [hx]
    exact hacc
  · intro y ty hy hle
    rw [hx]
    exact hcov y ty hy (by simpa [hd] using hle)
  · -- what the layer starts from is no winner, so what it accounted for does not succeed
    intro y ty hy hlt
    rw [hx]
    have hle : y.depth ≤ e.counters.depth := by
      simp only [hd] at hlt
      omega
    exact (hinv.covers y ty hy hle).not_reproduces hinv.wellFormed
      (hinv.accurate.imp fun _ h => h.2) hw

/-- One type-directed layer over a search that accounts for the language of its grammar
accounts for it one level deeper. -/
theorem Accounts.addLayer_covers {g : ResolvedGrammar} {t : Terminals} {e e' : Enumerator}
    (hacc : e.Accounts (Derives g t)) (hg : e.grammar = g) (hne : e.examples ≠ [])
    (hpolicy : e.policy = .typeDirected) (h : e.addLayer = .ok e') :
    ∀ x ty, Derives g t x ty → x.depth ≤ e.counters.depth + 1 → e'.bank.Covers e.examples x ty := by
  subst hg
  refine addLayer_covers_of hacc.signed hacc.wellFormed hacc.accurate hacc.depth_pos ?_ ?_
    hacc.covers h
  · intro x ty hx hdepth
    cases hx with
    | const _ | var _ | falseLit => simp [Expr.depth] at hdepth
    | node hop harity hbuild hderives =>
        exact ⟨_, hop, _, harity, hbuild, rfl, DerivesAll.forall₂ hderives⟩
  · intro s _ hs' hsw op hop children x hbuild _ _ hchildren
    rw [hpolicy]
    exact typeDirected_node (hacc.signed op hop) hne hs' hsw hbuild hchildren

/-- Running steps keeps an account of `L`, together with a property `J` that steps keep,
when each layer built from a search with both accounts for `L` one level deeper; enough
steps end the search. -/
theorem stepWhile_accounts {J : Enumerator → Prop}
    (hJ : ∀ e e' phase, e.Accounts L → J e → e.step = .ok (e', phase) → J e')
    (hlayer : ∀ e e₁, e.Accounts L → J e → e.phase = .searching → e.addLayer = .ok e₁ →
      ∀ x ty, L x ty → x.depth ≤ e.counters.depth + 1 → e₁.bank.Covers e.examples x ty) :
    ∀ {n : Nat} {e e' : Enumerator}, e.Accounts L → J e → stepWhile n e = .ok e' →
      e'.Accounts L ∧ J e' ∧ (e.maxDepth ≤ e.counters.depth + n → e'.phase ≠ .searching)
  | 0, e, e', hinv, hj, h => by
      unfold stepWhile at h
      cases h
      refine ⟨hinv, hj, fun hle hphase => ?_⟩
      have := (winner_of_searching hphase).2
      omega
  | n + 1, e, e', hinv, hj, h => by
      unfold stepWhile at h
      split at h
      · rename_i hphase
        obtain ⟨⟨e₁, phase⟩, hstep, h⟩ := Except.bind_eq_ok.mp h
        obtain ⟨hinv₁, hd⟩ := hinv.step (hlayer e · hinv hj) hstep
        obtain ⟨-, -, -, hm⟩ := step_fields hstep
        obtain ⟨hinv', hj', hover⟩ :=
          stepWhile_accounts hJ hlayer hinv₁ (hJ e e₁ phase hinv hj hstep) h
        refine ⟨hinv', hj', fun hle => hover ?_⟩
        rw [hm, hd hphase]
        omega
      · cases h
        exact ⟨hinv, hj, fun _ => ‹_›⟩

/-- A search that is over without a winner went to its depth bound, so when it accounts for
`L`, an expression of `L` within the bound that reproduces the examples means a winner. -/
theorem Accounts.winner_of_reproduces {e : Enumerator} (hinv : e.Accounts L)
    (hover : e.phase ≠ .searching) {x : Expr} {ty : Ty} (hx : L x ty) (hd : x.depth ≤ e.maxDepth)
    (hrep : x.Reproduces e.examples) : e.bank.winner.isSome := by
  cases hw : e.bank.winner with
  | some w => rfl
  | none =>
      have hdone := maxDepth_le_of_not_searching hover hw
      exact absurd hrep ((hinv.covers x ty hx (by omega)).not_reproduces hinv.wellFormed
        (hinv.accurate.imp fun _ h => h.2) hw)

end Accounts

/-- Running steps keeps the invariant, and enough of them end the search. -/
theorem stepWhile_exhaustive {t : Terminals} :
    ∀ {n : Nat} {e e' : Enumerator}, e.Exhaustive t → stepWhile n e = .ok e' →
      e'.Exhaustive t ∧ e'.grammar = e.grammar ∧ e'.examples = e.examples ∧
        e'.maxDepth = e.maxDepth ∧ (e.maxDepth ≤ e.counters.depth + n → e'.phase ≠ .searching) := by
  intro n e e' hinv h
  obtain ⟨hg, hx, hp, hm⟩ := (stepWhile_reaches h).fields
  -- the language is the one of the grammar the run starts from, which steps keep
  obtain ⟨hacc, -, hover⟩ := stepWhile_accounts (L := Derives e.grammar t)
    (J := fun e₁ => e₁.grammar = e.grammar ∧ e₁.examples ≠ [] ∧ e₁.policy = .typeDirected)
    (fun e₁ e₂ _ _ hj hstep => by
      obtain ⟨hg', hx', hp', -⟩ := step_fields hstep
      exact ⟨hg'.trans hj.1, hx' ▸ hj.2.1, hp'.trans hj.2.2⟩)
    (fun _ _ hacc hj _ h₁ => hacc.addLayer_covers hj.1 hj.2.1 hj.2.2 h₁)
    hinv.accounts ⟨rfl, hinv.nonempty, hinv.typeDirected⟩ h
  refine ⟨⟨hacc.signed, hx ▸ hinv.nonempty, hp.trans hinv.typeDirected, hacc.wellFormed,
    hacc.accurate, hacc.depth_pos, ?_, ?_⟩, hg, hx, hm, hover⟩
  · rw [hg]
    exact hacc.covers
  · rw [hg]
    exact hacc.shallow

theorem start_eq {grammar : ResolvedGrammar} {terminals : Terminals} {examples : List Example}
    {maxDepth : Nat} {policy : Policy} {tieBreak : TieBreak} {e : Enumerator}
    (h : start grammar terminals examples maxDepth policy tieBreak = .ok e) :
    let batch := (Bank.empty tieBreak).insertAll (seeds terminals)
      fun (expr, ty) => Candidate.ofExpr expr ty examples
    batch.failure = none ∧ e = ⟨grammar, examples, policy, maxDepth, batch.bank,
      Counters.recordAll ⟨1, 0, 0, 0, 0⟩ batch.observed⟩ := by
  unfold start at h
  dsimp only at h
  split at h
  · cases h
  · rename_i hfail
    cases h
    exact ⟨hfail, rfl⟩

theorem Candidate.ofExpr_expr_ty {x : Expr} {ty : Ty} {exs : List Example} {c : Candidate}
    (h : Candidate.ofExpr x ty exs = .ok c) : c.expr = x ∧ c.ty = ty := by
  obtain ⟨outputs, -, hout⟩ := Except.bind_eq_ok.mp h
  cases hout
  exact ⟨rfl, rfl⟩

/-- A started search accounts for each of its terminals at the family it is seeded at. -/
theorem start_covers {grammar : ResolvedGrammar} {t : Terminals} {exs : List Example}
    {maxDepth : Nat} {policy : Policy} {tb : TieBreak} {e : Enumerator}
    (h : start grammar t exs maxDepth policy tb = .ok e) {x : Expr} {ty : Ty}
    (hx : (x, ty) ∈ seeds t) : e.bank.Covers exs x ty := by
  obtain ⟨hfail, rfl⟩ := start_eq h
  refine Bank.insertAllFrom_covers ?_ hx (Bank.wellFormed_empty tb) hfail
  intro c hc
  obtain ⟨hexpr, hty⟩ := Candidate.ofExpr_expr_ty hc
  refine ⟨hexpr ▸ (Candidate.ofExpr_faithful hc).evals, fun v hv => ?_⟩
  rw [← hty]
  exact (Candidate.ofExpr_sorted (hasTy_of_mem_seeds hx) hc).values v hv

/-- A started search retains candidates of its terminals only. -/
theorem start_seeded {grammar : ResolvedGrammar} {t : Terminals} {exs : List Example}
    {maxDepth : Nat} {policy : Policy} {tb : TieBreak} {e : Enumerator}
    (h : start grammar t exs maxDepth policy tb = .ok e) :
    e.bank.All fun c => ∃ x ∈ seeds t, Candidate.ofExpr x.1 x.2 exs = .ok c := by
  obtain ⟨-, rfl⟩ := start_eq h
  apply Bank.insertAllFrom_all
  · rintro ⟨expr, ty⟩ hx c hc
    exact ⟨_, hx, hc⟩
  · exact ⟨by simp [Bank.toList, Bank.empty], by simp [Bank.empty]⟩

/-- A search started over a resolved grammar, under any policy, accounts at depth one for
every language whose expressions of depth one are seeded terminals. -/
theorem start_accounts {L : Expr → Ty → Prop} {g : Grammar} {rg : ResolvedGrammar}
    {t : Terminals} {exs : List Example} {maxDepth : Nat} {policy : Policy} {tb : TieBreak}
    {e : Enumerator} (hg : g.resolve = .ok rg)
    (hleaf : ∀ x ty, L x ty → x.depth ≤ 1 → (x, ty) ∈ seeds t)
    (h : start rg t exs maxDepth policy tb = .ok e) : e.Accounts L := by
  have hcov := fun x ty (hx : (x, ty) ∈ seeds t) => start_covers h hx
  obtain ⟨-, rfl⟩ := start_eq h
  have hwf := Bank.wellFormed_empty tb
  refine ⟨fun op hop => Grammar.signature_of_resolve hg hop,
    (Bank.reaches_insertAll _ _ _).wellFormed hwf, ?_, by simp [Counters.depth_recordAll],
    ?_, ?_⟩
  · apply Bank.insertAllFrom_all
    · rintro ⟨expr, ty⟩ hx c hc
      exact ⟨Candidate.ofExpr_sorted (hasTy_of_mem_seeds hx) hc, Candidate.ofExpr_faithful hc⟩
    · exact ⟨by simp [Bank.toList, Bank.empty], by simp [Bank.empty]⟩
  · -- up to depth one the language is terminals, each seeded
    intro x ty hx hle
    simp only [Counters.depth_recordAll] at hle
    exact hcov x ty (hleaf x ty hx hle)
  · intro x ty _ hlt
    simp only [Counters.depth_recordAll] at hlt
    have := x.depth_pos
    omega

/-- A type-directed search started over a resolved grammar and at least one example
satisfies the invariant at depth one. -/
theorem start_exhaustive {g : Grammar} {rg : ResolvedGrammar} {t : Terminals}
    {exs : List Example} {maxDepth : Nat} {tb : TieBreak} {e : Enumerator}
    (hg : g.resolve = .ok rg) (hne : exs ≠ [])
    (h : start rg t exs maxDepth .typeDirected tb = .ok e) : e.Exhaustive t := by
  obtain ⟨hgr, hx, hp, -, -⟩ := start_ok h
  have hacc : e.Accounts (Derives e.grammar t) :=
    start_accounts hg (fun x ty hx hle => hx.mem_seeds hle) h
  exact ⟨hacc.signed, hx ▸ hne, hp, hacc.wellFormed, hacc.accurate, hacc.depth_pos,
    hacc.covers, hacc.shallow⟩

end Enumerator

/-! ### Synthesis -/

@[simp] theorem Except.mapError_eq_ok {ε ε' α : Type} {f : ε → ε'} {m : Except ε α} {a : α} :
    m.mapError f = .ok a ↔ m = .ok a := by
  cases m <;> simp [Except.mapError]

/-- Variables are read at the family the grammar places them in, the integers when it
places them nowhere. -/
theorem variableTyOf_eq {g : ResolvedGrammar} {names : List String} {ty : Ty}
    (h : variableTyOf g names = .ok ty) : ty = g.variableTy.getD .int := by
  unfold variableTyOf at h
  split at h
  · rename_i ty' hty
    cases h
    simp [hty]
  · rename_i hnone
    split at h
    · cases h
      simp [hnone]
    · cases h

theorem Problem.examples_ne_nil_of_validate {p : Problem} (h : p.validate = .ok ()) :
    p.examples ≠ [] := by
  unfold Problem.validate at h
  split at h
  · cases h
  · split at h
    · cases h
    · rename_i hne
      simpa using hne

/-- A synthesis that returns checked its problem, resolved its grammar, started a search
over the problem's terminals and ran it to its end; the outcome is the winner, if any. -/
theorem synthesize_ok {p : Problem} {policy : Policy} {tb : TieBreak} {s : Synthesis}
    (h : synthesize p policy tb = .ok s) :
    ∃ rg e e', p.validate = .ok () ∧ p.grammar.resolve = .ok rg ∧
      Enumerator.start rg (p.terminals rg) p.examples p.maxDepth policy tb = .ok e ∧
      Enumerator.stepWhile e.maxDepth e = .ok e' ∧
      s = ⟨(e'.bank.winner.map (·.expr)).elim .noSolution .found, e'.stats⟩ := by
  unfold synthesize at h
  obtain ⟨u, hv, h⟩ := Except.bind_eq_ok.mp h
  obtain ⟨rg, hg, h⟩ := Except.bind_eq_ok.mp h
  obtain ⟨ty, hty, h⟩ := Except.bind_eq_ok.mp h
  obtain ⟨e, he, h⟩ := Except.bind_eq_ok.mp h
  obtain ⟨⟨winner, stats⟩, hrun, h⟩ := Except.bind_eq_ok.mp h
  obtain ⟨e', hsteps, hres⟩ := Except.bind_eq_ok.mp (Except.mapError_eq_ok.mp hrun)
  cases hres
  cases h
  rw [variableTyOf_eq (Except.mapError_eq_ok.mp hty)] at he
  exact ⟨rg, e, e', Except.mapError_eq_ok.mp hv, Except.mapError_eq_ok.mp hg,
    Except.mapError_eq_ok.mp he, hsteps, rfl⟩

/-- Completeness of the type-directed search, for every tie break. The language of a
problem is the expressions its resolved grammar derives over its terminals. When the
synthesis returns, some expression of the language no deeper than the depth bound
reproduces the examples only if an expression was found; and when one was found, no
expression of the language shallower than the depth the search reached reproduces them. -/
theorem typeDirected_search_complete {p : Problem} {tb : TieBreak} {s : Synthesis}
    {rg : ResolvedGrammar} (h : synthesize p .typeDirected tb = .ok s)
    (hg : p.grammar.resolve = .ok rg) :
    ((∃ x ty, Derives rg (p.terminals rg) x ty ∧ x.depth ≤ p.maxDepth ∧
      x.Reproduces p.examples) → ∃ x, s.outcome = .found x) ∧
    ∀ x, s.outcome = .found x → ∀ y ty, Derives rg (p.terminals rg) y ty →
      y.depth < s.stats.depth → ¬ y.Reproduces p.examples := by
  obtain ⟨rg', e, e', hv, hg', hstart, hrun, rfl⟩ := synthesize_ok h
  rw [hg] at hg'
  cases hg'
  have hinit := Enumerator.start_exhaustive hg (Problem.examples_ne_nil_of_validate hv) hstart
  obtain ⟨hgr₀, hex₀, -, hm₀, -⟩ := Enumerator.start_ok hstart
  obtain ⟨hfinal, hgr, hex, hm, hover⟩ := Enumerator.stepWhile_exhaustive hinit hrun
  have hover := hover (by omega)
  have hlang : ∀ y ty, Derives rg (p.terminals rg) y ty →
      Derives e'.grammar (p.terminals rg) y ty := by
    intro y ty hy
    rwa [hgr, hgr₀]
  have hexs : e'.examples = p.examples := hex.trans hex₀
  refine ⟨?_, ?_⟩
  · rintro ⟨x, ty, hx, hdepth, hrep⟩
    cases hw : e'.bank.winner with
    | some w => exact ⟨w.expr, rfl⟩
    | none =>
        -- without a winner the search went to the depth bound, so it accounted for `x`
        have hdone := Enumerator.maxDepth_le_of_not_searching hover hw
        have hcov := hfinal.covers x ty (hlang x ty hx) (by omega)
        rw [hexs] at hcov
        exact absurd hrep (hcov.not_reproduces hfinal.wellFormed
          (hexs ▸ hfinal.accurate.imp fun _ h => h.2) hw)
  · intro _ _ y ty hy hlt
    rw [← hexs]
    exact hfinal.shallow y ty (hlang y ty hy) hlt

/-- Over a variable `x` with sums and products, the constant one and the examples
`x = 2 ↦ 5` and `x = 3 ↦ 10`, the language holds `1 + x * x`, of depth three, which
reproduces both: the search builds two layers and finds it, and no expression of depth two
or less reproduces the examples. -/
theorem typeDirected_search_complete_square :
    let p : Problem := ⟨3, ⟨[.variable, .plus, .times], []⟩, ["x"], [1],
      [⟨⟨[("x", 2)]⟩, .int 5⟩, ⟨⟨[("x", 3)]⟩, .int 10⟩]⟩
    let rg : ResolvedGrammar := ⟨some .int, [⟨.variable, [], .int⟩,
      ⟨.plus, [.int, .int], .int⟩, ⟨.times, [.int, .int], .int⟩]⟩
    let x : Expr := .var "x" .int
    let sol : Expr := .binop .plus (.const 1) (.binop .times x x)
    let s : Synthesis := ⟨.found sol, ⟨3, 2, 38, 18, 19, 0⟩⟩
    synthesize p .typeDirected .keepExisting = .ok s ∧ p.grammar.resolve = .ok rg ∧
      Derives rg (p.terminals rg) sol .int ∧ sol.depth ≤ p.maxDepth ∧
      sol.Reproduces p.examples ∧ (∃ y, s.outcome = .found y) ∧
      ∀ y ty, Derives rg (p.terminals rg) y ty → y.depth < s.stats.depth →
        ¬ y.Reproduces p.examples := by
  intro p rg x sol s
  have h : synthesize p .typeDirected .keepExisting = .ok s := by cbv
  have hg : p.grammar.resolve = .ok rg := by decide
  have hx : Derives rg (p.terminals rg) x .int := .var (by simp [p, Problem.terminals])
  have hsquare : Derives rg (p.terminals rg) (.binop .times x x) .int :=
    @Derives.node rg _ ⟨.times, [.int, .int], .int⟩ [x, x] _ (by simp [rg]) (by decide) rfl
      (.cons hx (.cons hx .nil))
  have hsol : Derives rg (p.terminals rg) sol .int :=
    @Derives.node rg _ ⟨.plus, [.int, .int], .int⟩ [.const 1, .binop .times x x] _ (by simp [rg])
      (by decide) rfl (.cons (.const (by simp [p, Problem.terminals])) (.cons hsquare .nil))
  have hrep : sol.Reproduces p.examples := Expr.reproduces_iff.mpr (by decide)
  obtain ⟨hfind, hshallow⟩ := typeDirected_search_complete h hg
  exact ⟨h, hg, hsol, by decide, hrep, hfind ⟨sol, .int, hsol, by decide, hrep⟩,
    fun y ty hy hlt => hshallow sol rfl y ty hy hlt⟩

end ExprSynth
