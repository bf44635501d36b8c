import ExprSynth.Proofs.Statistics
import Mathlib.Data.List.Nodup

/-! Under the type-directed policy the tie break does not change the course of the search.
A tie break only chooses which of two candidates with the same values stays, and where in the
bank; the type-directed pools offer every retained candidate of a family, so the values a pass
builds depend only on the values retained, and so do the number of tuples it visits and
whether one of them succeeds. Run side by side, two searches that differ in their tie breaks
each keep up with the other: they find a winner in the same pass, reach the same depth, and
until a winner they retain the same values at the same families and have generated as many
candidates. -/
namespace ExprSynth

/-! ### Values retained at their families -/

namespace Bank

/-- The values of the retained candidates, in bank order, each with the family of its
candidate. -/
def signature (b : Bank) : List (List Value × Ty) :=
  b.toList.map fun c => (c.outputs, c.ty)

theorem mem_signature {b : Bank} {vs : List Value} {ty : Ty} :
    (vs, ty) ∈ b.signature ↔ ∃ c ∈ b.toList, c.outputs = vs ∧ c.ty = ty := by
  simp [signature]

theorem WellFormed.signature_nodup {b : Bank} (hb : b.WellFormed) : b.signature.Nodup := by
  refine List.Nodup.of_map Prod.fst ?_
  simpa [signature, keys, List.map_map, Function.comp_def] using hb.nodup

/-- A pool holds the retained candidates of its family, one per value retained there. -/
theorem length_poolOf (b : Bank) (ty : Ty) :
    (b.poolOf ty).length = b.signature.countP (·.2 == ty) := by
  rw [List.countP_eq_length_filter, signature, List.filter_map, List.length_map]
  rfl

/-- Two well-formed banks that retain the same values at the same families offer pools of the
same sizes. -/
theorem length_poolOf_eq {b₁ b₂ : Bank} (h₁ : b₁.WellFormed) (h₂ : b₂.WellFormed)
    (hsig : ∀ x, x ∈ b₁.signature ↔ x ∈ b₂.signature) (ty : Ty) :
    (b₁.poolOf ty).length = (b₂.poolOf ty).length := by
  have hperm : b₁.signature.Perm b₂.signature :=
    (List.perm_ext_iff_of_nodup h₁.signature_nodup h₂.signature_nodup).mpr hsig
  rw [length_poolOf, length_poolOf, hperm.countP_eq]

/-- A bank without winner of well-sorted candidates that accounts for `x` at `ty` retains the
values of `x` at `ty`: one example is enough to read the family off the values. -/
theorem Covers.mem_signature {b : Bank} {exs : List Example} {x : Expr} {ty : Ty}
    {vs : List Value} (hne : exs ≠ []) (hs : b.All (Candidate.Sorted exs))
    (hw : b.winner = none) (hcov : b.Covers exs x ty) (hx : x.evalAll exs = vs.map .ok) :
    (vs, ty) ∈ b.signature := by
  rcases hcov with hsome | ⟨vs', hvs', hx', hty⟩
  · simp [hw] at hsome
  have hvs : vs' = vs :=
    List.map_injective_iff.mpr (fun _ _ h => Except.ok.inj h) (hx'.symm.trans hx)
  subst hvs
  obtain ⟨c, hc, rfl⟩ := List.mem_map.mp hvs'
  obtain ⟨v, hv⟩ : ∃ v, v ∈ c.outputs := by
    apply List.exists_mem_of_ne_nil
    intro hnil
    have hlen := (hs.1 c hc).length
    rw [hnil] at hlen
    exact hne (List.eq_nil_of_length_eq_zero hlen.symm)
  have hcty : c.ty = ty := ((hs.1 c hc).values v hv).symm.trans (hty v hv)
  exact Bank.mem_signature.mpr ⟨c, hc, rfl, hcty⟩

/-- A bank that keeps up with another and has no winner retains every value the other
retains, at the same family. -/
theorem Dominated.mem_signature {exs : List Example} {r f : Bank} (hne : exs ≠ [])
    (hd : Dominated exs r f) (hw : f.winner = none) {vs : List Value} {ty : Ty}
    (h : (vs, ty) ∈ r.signature) : (vs, ty) ∈ f.signature := by
  obtain ⟨c, hc, rfl, rfl⟩ := Bank.mem_signature.mp h
  exact (hd.covers.1 c hc).mem_signature hne (hd.right.imp fun _ h => h.1) hw
    (hd.left.1 c hc).evals

end Bank

/-! ### Counting the tuples of a pass -/

/-- Whether a node is built depends only on its kind and on how many children it is given. -/
theorem Candidate.node?_isSome_iff {kind : NodeKind} {ty : Ty} {expected : List Value}
    {args : List Candidate} :
    (node? kind ty expected args).isSome ↔ ∃ x, kind.build (args.map (·.expr)) = .ok x := by
  constructor
  · intro h
    unfold node? at h
    split at h
    · exact ⟨_, ‹_›⟩
    · simp at h
  · rintro ⟨x, hx⟩
    rcases NodeKind.build_cases hx with ⟨op, l, r, rfl, hargs, rfl⟩ | ⟨a, rfl, hargs, rfl⟩ |
      ⟨c, t, f, rfl, hargs, rfl⟩
    · obtain ⟨a₁, a₂, rfl⟩ := List.length_eq_two.mp (by simpa using congrArg List.length hargs)
      simp only [List.map_cons, List.map_nil] at hx
      simp [node?, hx, nodeOutputs_binop]
    · obtain ⟨a₁, rfl⟩ := List.length_eq_one_iff.mp (by simpa using congrArg List.length hargs)
      simp only [List.map_cons, List.map_nil] at hx
      simp [node?, hx, nodeOutputs]
    · obtain ⟨a₁, a₂, a₃, rfl⟩ :=
        List.length_eq_three.mp (by simpa using congrArg List.length hargs)
      simp only [List.map_cons, List.map_nil] at hx
      simp [node?, hx, nodeOutputs]

theorem Candidate.node?_isSome_congr {kind : NodeKind} {ty ty' : Ty}
    {expected expected' : List Value} {args args' : List Candidate}
    (hlen : args.length = args'.length) :
    (node? kind ty expected args).isSome = (node? kind ty' expected' args').isSome := by
  rw [Bool.eq_iff_iff, node?_isSome_iff, node?_isSome_iff]
  constructor
  · rintro ⟨x, hx⟩
    exact NodeKind.build_of_length hx (by simp [hlen])
  · rintro ⟨x, hx⟩
    exact NodeKind.build_of_length hx (by simp [hlen])

theorem length_tuples {α : Type} (pools : List (List α)) :
    (tuples pools).length = (pools.map List.length).prod := by
  induction pools with
  | nil => rfl
  | cons pool rest ih => simp [tuples, List.length_flatMap, ih]

/-- Every tuple takes one item from each pool. -/
theorem length_of_mem_tuples {α : Type} {pools : List (List α)} {args : List α}
    (h : args ∈ tuples pools) : args.length = pools.length :=
  (mem_tuples.mp h).length_eq

/-- The tuples that satisfy a test of their length only: all of them, or none. -/
theorem countP_tuples {α : Type} [Inhabited α] (p : List α → Bool)
    (hp : ∀ a b, a.length = b.length → p a = p b) (pools : List (List α)) :
    (tuples pools).countP p =
      if p (List.replicate pools.length default) then (pools.map List.length).prod else 0 := by
  split
  · rename_i hrep
    rw [List.countP_eq_length.mpr, length_tuples]
    intro args hargs
    rw [hp args (List.replicate pools.length default) (by simp [length_of_mem_tuples hargs])]
    exact hrep
  · rename_i hrep
    rw [List.countP_eq_zero]
    intro args hargs
    rw [hp args (List.replicate pools.length default) (by simp [length_of_mem_tuples hargs])]
    exact hrep

theorem Counters.generated_recordAll (c : Counters) (observed : Array Insertion) :
    (c.recordAll observed).generated = c.generated + observed.size := by
  unfold Counters.recordAll
  rw [← Array.foldl_toList, ← Array.length_toList]
  generalize observed.toList = l
  induction l generalizing c with
  | nil => rfl
  | cons i l ih =>
      rw [List.foldl_cons, ih, Counters.record_generated, List.length_cons]
      omega

/-- A batch that ends without a winner and without a failure inserted every item. -/
theorem Bank.insertAllFrom_observed {α ε : Type} (build : α → Except ε Candidate) :
    ∀ (items : List α) (acc : Batch ε), (insertAllFrom build acc items).bank.winner = none →
      (insertAllFrom build acc items).failure = none →
      (insertAllFrom build acc items).observed.size = acc.observed.size + items.length
  | [], _, _, _ => rfl
  | item :: rest, ⟨bank, observed, pulled, failure⟩, hw, hf => by
      by_cases hb : bank.winner.isSome
      · simp [insertAllFrom, hb] at hw
        simp [hw] at hb
      · cases hc : build item with
        | error err => simp [insertAllFrom, hb, hc] at hf
        | ok c =>
            simp only [insertAllFrom, hb, hc, Bool.false_eq_true, ↓reduceIte] at hw hf ⊢
            rw [insertAllFrom_observed build rest _ hw hf]
            simp only [Array.size_push, List.length_cons]
            omega

namespace Enumerator

/-- A pass that ends without a winner visited every tuple, and generated one candidate for
each tuple whose node is built. -/
theorem foldlM_visit_generated {expected : List Value} {op : Operator} :
    ∀ (xs : List (List Candidate)) {s s' : Bank × Counters},
      xs.foldlM (fun s args => if s.1.winner.isSome then pure s else visit expected op s args)
        s = .ok s' →
      s'.1.winner = none →
      s'.2.generated =
        s.2.generated + xs.countP fun args => (Candidate.node? op.kind op.ret expected args).isSome
  | [], _, _, h, _ => by
      cases h
      simp
  | args :: rest, s, s', h, hw => by
      rw [List.foldlM_cons] at h
      obtain ⟨s₁, h₁, hrest⟩ := Except.bind_eq_ok.mp h
      split at h₁
      · -- a winner is set, and the rest of the pass skips every tuple
        rename_i hsome
        cases h₁
        rw [foldlM_guarded_of_stop (fun s : Bank × Counters => s.1.winner.isSome)
          (visit expected op) rest hsome] at hrest
        cases hrest
        simp [hw] at hsome
      · have ih := foldlM_visit_generated rest hrest hw
        unfold visit at h₁
        split at h₁
        · rename_i hnode
          cases h₁
          simp [ih, hnode]
        · cases h₁
        · rename_i c hnode
          cases h₁
          simp only [Counters.record_generated] at ih
          simp [ih, hnode]
          omega

/-- A turn that leaves no winner generated one candidate for each tuple of its pools whose
node is built. -/
theorem turn_generated {expected : List Value} {policy : Policy} {op : Operator}
    {s s' : Bank × Counters} (h : turn expected policy s op = .ok s') (hw : s'.1.winner = none) :
    s'.2.generated = s.2.generated + if op.arity = 0 then 0 else
      (tuples (policy.pools op s.1)).countP
        fun args => (Candidate.node? op.kind op.ret expected args).isSome := by
  unfold turn at h
  split at h
  · rename_i hskip
    cases h
    rcases hskip with hsome | harity
    · simp [hw] at hsome
    · simp [harity]
  · rename_i hskip
    have hnone : s.1.winner.isSome = false := by simpa using fun h => hskip (.inl h)
    have harity : op.arity ≠ 0 := fun h => hskip (.inr h)
    rw [passOp_eq _ _ _ _ hnone] at h
    rw [foldlM_visit_generated _ h hw, if_neg harity]

/-! ### Two type-directed searches side by side -/

/-- The banks and counters of two type-directed searches over the examples `exs`, taken at
the same point: each bank keeps up with the other, their winners succeed, and while they have
no winner they have generated as many candidates. -/
structure Mirror (exs : List Example) (s₁ s₂ : Bank × Counters) : Prop where
  forth : Bank.Dominated exs s₁.1 s₂.1
  back : Bank.Dominated exs s₂.1 s₁.1
  succeeds₁ : ∀ w, s₁.1.winner = some w → w.success = true
  succeeds₂ : ∀ w, s₂.1.winner = some w → w.success = true
  generated : s₁.1.winner = none → s₁.2.generated = s₂.2.generated

variable {exs : List Example}

theorem Mirror.winner_eq_none_iff {s₁ s₂ : Bank × Counters} (h : Mirror exs s₁ s₂) :
    s₁.1.winner = none ↔ s₂.1.winner = none :=
  ⟨h.back.winner_eq_none h.succeeds₂, h.forth.winner_eq_none h.succeeds₁⟩

theorem Mirror.mem_signature_iff {s₁ s₂ : Bank × Counters} (h : Mirror exs s₁ s₂)
    (hne : exs ≠ []) (hw : s₁.1.winner = none) (x : List Value × Ty) :
    x ∈ s₁.1.signature ↔ x ∈ s₂.1.signature :=
  ⟨fun hx => h.forth.mem_signature hne (h.winner_eq_none_iff.mp hw) hx,
    fun hx => h.back.mem_signature hne hw hx⟩

/-- Without winners, the type-directed pools of an operator in the two banks have the same
sizes, position by position. -/
theorem Mirror.pool_lengths {s₁ s₂ : Bank × Counters} (h : Mirror exs s₁ s₂) (hne : exs ≠ [])
    (hw : s₁.1.winner = none) (op : Operator) :
    (Policy.typeDirected.pools op s₁.1).map List.length =
      (Policy.typeDirected.pools op s₂.1).map List.length := by
  simp only [Policy.pools, List.map_map]
  refine List.map_congr_left fun ty _ => ?_
  exact Bank.length_poolOf_eq h.back.wellFormed h.forth.wellFormed
    (h.mem_signature_iff hne hw) ty

/-- The same operator's turn in the two searches keeps them mirrored: each bank keeps up with
the other as in the dominance of the type-directed search, and without winners both turns
visit as many tuples, since their pools have the same sizes. -/
theorem Mirror.turn {op : Operator} (hsig : op.kind.HasSignature op.args op.ret)
    (hne : exs ≠ []) {s₁ s₂ s₁' s₂' : Bank × Counters} (h : Mirror exs s₁ s₂)
    (h₁ : turn (exs.map (·.output)) .typeDirected s₁ op = .ok s₁')
    (h₂ : turn (exs.map (·.output)) .typeDirected s₂ op = .ok s₂') :
    Mirror exs s₁' s₂' := by
  have hforth := Bank.Dominated.turn hsig hne h.forth h₁ h₂
  have hback := Bank.Dominated.turn hsig hne h.back h₂ h₁
  have hsucc₁ := (turn_reaches h₁).winner_success h.succeeds₁
  have hsucc₂ := (turn_reaches h₂).winner_success h.succeeds₂
  refine ⟨hforth, hback, hsucc₁, hsucc₂, fun hw₁' => ?_⟩
  have hw₂' : s₂'.1.winner = none := hback.winner_eq_none hsucc₂ hw₁'
  -- a turn that ends without winner started without one
  have hw₁ : s₁.1.winner = none := by
    cases hs : s₁.1.winner with
    | none => rfl
    | some w => simp [(turn_reaches h₁).eq_of_winner (by simp [hs]), hs] at hw₁'
  have hcount := countP_tuples
    (fun args => (Candidate.node? op.kind op.ret (exs.map (·.output)) args).isSome)
    (fun _ _ hlen => Candidate.node?_isSome_congr hlen)
  have hlen₁ : (Policy.typeDirected.pools op s₁.1).length = op.args.length := by
    simp [Policy.pools]
  have hlen₂ : (Policy.typeDirected.pools op s₂.1).length = op.args.length := by
    simp [Policy.pools]
  rw [turn_generated h₁ hw₁', turn_generated h₂ hw₂', h.generated hw₁, hcount, hcount, hlen₁,
    hlen₂, h.pool_lengths hne hw₁]

/-- The same turns of a layer keep two searches mirrored. -/
theorem Mirror.passes {g : ResolvedGrammar} (hsig : ∀ op ∈ g.ops, op.kind.HasSignature op.args op.ret)
    (hne : exs ≠ []) {ops : List Operator} (hops : ∀ op ∈ ops, op ∈ g.ops)
    {s₁ s₂ s₁' s₂' : Bank × Counters} (h : Mirror exs s₁ s₂)
    (h₁ : ops.foldlM (Enumerator.turn (exs.map (·.output)) .typeDirected) s₁ = .ok s₁')
    (h₂ : ops.foldlM (Enumerator.turn (exs.map (·.output)) .typeDirected) s₂ = .ok s₂') :
    Mirror exs s₁' s₂' :=
  foldlM_rel (fun _ _ hs op hop _ _ ht₁ ht₂ => hs.turn (hsig op (hops op hop)) hne ht₁ ht₂) h h₁ h₂

theorem Mirror.isSome_iff {s₁ s₂ : Bank × Counters} (h : Mirror exs s₁ s₂) :
    s₁.1.winner.isSome ↔ s₂.1.winner.isSome := by
  rw [Option.isSome_iff_ne_none, Option.isSome_iff_ne_none, Ne, Ne, h.winner_eq_none_iff]

/-- Without winners the two banks retain as many candidates: one per value retained. -/
theorem Mirror.size_eq {s₁ s₂ : Bank × Counters} (h : Mirror exs s₁ s₂) (hne : exs ≠ [])
    (hw : s₁.1.winner = none) : s₁.1.size = s₂.1.size := by
  have hperm : s₁.1.signature.Perm s₂.1.signature :=
    (List.perm_ext_iff_of_nodup h.back.wellFormed.signature_nodup
      h.forth.wellFormed.signature_nodup).mpr (h.mem_signature_iff hne hw)
  have hlen := hperm.length_eq
  simpa [Bank.signature, Bank.size_eq_length_keys, Bank.keys] using hlen

/-- Two type-directed searches over the grammar `g`, the terminals `t` and the examples `exs`,
with any tie breaks, side by side: each keeps up with the other, and while neither has a
winner they have generated as many candidates. -/
structure Twins (g : ResolvedGrammar) (t : Terminals) (exs : List Example)
    (e₁ e₂ : Enumerator) : Prop where
  forth : Dominated g t .typeDirected exs e₁ e₂
  back : Dominated g t .typeDirected exs e₂ e₁
  generated : e₁.bank.winner = none → e₁.counters.generated = e₂.counters.generated

variable {g : ResolvedGrammar} {t : Terminals} {e₁ e₂ : Enumerator}

theorem Twins.banks (h : Twins g t exs e₁ e₂) :
    Mirror exs (e₁.bank, e₁.counters) (e₂.bank, e₂.counters) :=
  ⟨h.forth.banks, h.back.banks, h.forth.left.winner, h.forth.right.winner, h.generated⟩

theorem Twins.depth_eq (h : Twins g t exs e₁ e₂) : e₁.counters.depth = e₂.counters.depth :=
  Nat.le_antisymm h.back.depth_le h.forth.depth_le

/-- Two searches side by side are in the same phase: they have a winner alike, and are at the
same depth under the same bound. -/
theorem Twins.phase_eq (h : Twins g t exs e₁ e₂) : e₁.phase = e₂.phase := by
  have hw : e₁.bank.winner.isSome = e₂.bank.winner.isSome := Bool.eq_iff_iff.mpr h.banks.isSome_iff
  simp only [phase, hw, h.depth_eq, h.forth.maxDepth]

/-- The two searches stay side by side over one step each: both build a layer or neither
does, and the layers' turns keep them mirrored. -/
theorem Twins.step {e₁' e₂' : Enumerator} {ph₁ ph₂ : Phase} (h : Twins g t exs e₁ e₂)
    (h₁ : e₁.step = .ok (e₁', ph₁)) (h₂ : e₂.step = .ok (e₂', ph₂)) : Twins g t exs e₁' e₂' := by
  refine ⟨h.forth.step h₁ h₂, h.back.step h₂ h₁, ?_⟩
  by_cases hs : e₁.phase = .searching
  · have hs₂ : e₂.phase = .searching := h.phase_eq ▸ hs
    obtain ⟨-, f₁, hf₁, rfl⟩ := (step_cases h₁).resolve_left fun h => h.1 hs
    obtain ⟨-, f₂, hf₂, rfl⟩ := (step_cases h₂).resolve_left fun h => h.1 hs₂
    obtain ⟨s₁, hfold₁, rfl⟩ := addLayer_ok hf₁
    obtain ⟨s₂, hfold₂, rfl⟩ := addLayer_ok hf₂
    rw [expected, h.forth.left.examples, h.forth.left.policy_eq, h.forth.left.grammar] at hfold₁
    rw [expected, h.forth.right.examples, h.forth.right.policy_eq, h.forth.right.grammar] at hfold₂
    exact (h.banks.passes h.forth.left.signed h.forth.nonempty (fun _ hop => hop) hfold₁
      hfold₂).generated
  · have hs₂ : e₂.phase ≠ .searching := h.phase_eq ▸ hs
    obtain ⟨-, rfl⟩ := (step_cases h₁).resolve_right fun h => hs h.1
    obtain ⟨-, rfl⟩ := (step_cases h₂).resolve_right fun h => hs₂ h.1
    exact h.generated

/-- Runs of the same number of steps keep the two searches side by side. -/
theorem Twins.stepWhile (h : Twins g t exs e₁ e₂) :
    ∀ (n : Nat) {e₁' e₂' : Enumerator}, stepWhile n e₁ = .ok e₁' → stepWhile n e₂ = .ok e₂' →
      Twins g t exs e₁' e₂' := by
  intro n
  induction n generalizing e₁ e₂ with
  | zero =>
      intro e₁' e₂' h₁ h₂
      cases h₁
      cases h₂
      exact h
  | succ n ih =>
      intro e₁' e₂' h₁ h₂
      rw [stepWhile_succ] at h₁ h₂
      obtain ⟨⟨f₁, ph₁⟩, hf₁, h₁⟩ := Except.bind_eq_ok.mp h₁
      obtain ⟨⟨f₂, ph₂⟩, hf₂, h₂⟩ := Except.bind_eq_ok.mp h₂
      exact ih (h.step hf₁ hf₂) h₁ h₂

/-- Two type-directed searches started over the same grammar, terminals, examples and bound,
with any tie breaks, start side by side: each keeps up with the other, and without a winner
both inserted every terminal. -/
theorem start_twins {gr : Grammar} {m : Nat} {tb₁ tb₂ : TieBreak}
    (hg : gr.resolve = .ok g) (hne : exs ≠ []) (h₁ : start g t exs m .typeDirected tb₁ = .ok e₁)
    (h₂ : start g t exs m .typeDirected tb₂ = .ok e₂) : Twins g t exs e₁ e₂ := by
  have hforth := start_dominated hg hne h₁ h₂
  have hback := start_dominated hg hne h₂ h₁
  refine ⟨hforth, hback, fun hw₁ => ?_⟩
  have hw₂ : e₂.bank.winner = none := hback.banks.winner_eq_none hback.left.winner hw₁
  obtain ⟨hf₁, rfl⟩ := start_eq h₁
  obtain ⟨hf₂, rfl⟩ := start_eq h₂
  simp only [Counters.generated_recordAll]
  rw [Bank.insertAll, Bank.insertAllFrom_observed _ _ _ hw₁ hf₁, Bank.insertAll,
    Bank.insertAllFrom_observed _ _ _ hw₂ hf₂]

/-- The terminals fail alike under every tie break: a tie break never sees a candidate that
cannot be built. -/
theorem start_error_of_error {m : Nat} {policy : Policy} {tb₁ tb₂ : TieBreak} {err : EvalError}
    (h : start g t exs m policy tb₁ = .error err) : start g t exs m policy tb₂ = .error err := by
  have hfail : (Bank.insertAllFrom (fun x => Candidate.ofExpr x.1 x.2 exs)
        ⟨Bank.empty tb₁, #[], 0, none⟩ (seeds t)).failure =
      (Bank.insertAllFrom (fun x => Candidate.ofExpr x.1 x.2 exs)
        ⟨Bank.empty tb₂, #[], 0, none⟩ (seeds t)).failure := by
    refine (Bank.insertAllFrom_winner_failure _ (seeds t) ?_ ?_).2 <;> rfl
  unfold start at h ⊢
  dsimp only at h ⊢
  simp only [Bank.insertAll] at h ⊢
  rw [← hfail]
  split at h
  · exact h
  · cases h

end Enumerator

/-- A synthesis fails alike under every tie break of the type-directed policy: the checks of
the problem do not look at it, the terminals fail alike, and once they are in no evaluation
fails. -/
theorem synthesize_error_of_error {p : Problem} {tb₁ tb₂ : TieBreak} {err : SynthError}
    (h : synthesize p .typeDirected tb₁ = .error err) :
    synthesize p .typeDirected tb₂ = .error err := by
  unfold synthesize at h ⊢
  cases hv : p.validate with
  | error c => simpa [hv, Except.mapError, bind, Except.bind] using h
  | ok u =>
  cases hg : p.grammar.resolve with
  | error c => simpa [hv, hg, Except.mapError, bind, Except.bind] using h
  | ok rg =>
  cases hty : variableTyOf rg p.names with
  | error c => simpa [hv, hg, hty, Except.mapError, bind, Except.bind] using h
  | ok ty =>
  cases hs₁ : Enumerator.start rg ⟨p.constants, p.names, ty⟩ p.examples p.maxDepth .typeDirected
      tb₁ with
  | error e =>
      have hs₂ : Enumerator.start rg ⟨p.constants, p.names, ty⟩ p.examples p.maxDepth
          .typeDirected tb₂ = .error e := Enumerator.start_error_of_error hs₁
      simp only [hv, hg, hty, hs₁, hs₂, Except.mapError, bind, Except.bind] at h ⊢
      exact h
  | ok e₁ =>
      -- the search started under the first tie break runs to its end
      obtain ⟨r, hr⟩ := Enumerator.run_ok_of_preserves (fun _ h => h.step)
        (Enumerator.start_sortedSearch hg hs₁)
      simp [hv, hg, hty, hs₁, hr, Except.mapError, bind, Except.bind, pure, Except.pure] at h

theorem Outcome.elim_eq_noSolution_iff (w : Option Candidate) :
    (w.map (·.expr)).elim .noSolution .found = Outcome.noSolution ↔ w = none := by
  cases w <;> simp

/-- Under the type-directed policy the tie break does not change the course of the search.
For every problem and any two tie breaks, the two syntheses fail with the same error or both
return. When they return, both find an expression or neither does, at the same depth after as
many layers, and when neither finds one they generated and retained as many candidates and
set as many aside, discarded or replaced. Run side by side from their starts, after the same
number of steps and at the start of the same operator's turn in the layer, the two searches
have a winner alike, and until they do their banks retain the same values, each at the same
family. -/
theorem typeDirected_tieBreak_irrelevant (p : Problem) (tb₁ tb₂ : TieBreak) :
    (∀ err, synthesize p .typeDirected tb₁ = .error err ↔
      synthesize p .typeDirected tb₂ = .error err) ∧
    (∀ s₁ s₂, synthesize p .typeDirected tb₁ = .ok s₁ → synthesize p .typeDirected tb₂ = .ok s₂ →
      (s₁.outcome = .noSolution ↔ s₂.outcome = .noSolution) ∧
      s₁.stats.depth = s₂.stats.depth ∧ s₁.stats.layers = s₂.stats.layers ∧
      (s₁.outcome = .noSolution →
        s₁.stats.generated = s₂.stats.generated ∧ s₁.stats.retained = s₂.stats.retained ∧
        s₁.stats.discarded + s₁.stats.replaced = s₂.stats.discarded + s₂.stats.replaced)) ∧
    ∀ rg, p.validate = .ok () → p.grammar.resolve = .ok rg →
    ∀ e₁ e₂, Enumerator.start rg (p.terminals rg) p.examples p.maxDepth .typeDirected tb₁ = .ok e₁ →
      Enumerator.start rg (p.terminals rg) p.examples p.maxDepth .typeDirected tb₂ = .ok e₂ →
      ∀ n e₁' e₂', Enumerator.stepWhile n e₁ = .ok e₁' → Enumerator.stepWhile n e₂ = .ok e₂' →
      ∀ pre, pre <+: rg.ops → ∀ s₁ s₂,
        pre.foldlM (Enumerator.turn e₁'.expected e₁'.policy) (e₁'.bank, e₁'.counters) = .ok s₁ →
        pre.foldlM (Enumerator.turn e₂'.expected e₂'.policy) (e₂'.bank, e₂'.counters) = .ok s₂ →
        (s₁.1.winner.isSome ↔ s₂.1.winner.isSome) ∧
        (s₁.1.winner = none → ∀ vs ty, (vs, ty) ∈ s₁.1.signature ↔ (vs, ty) ∈ s₂.1.signature) := by
  refine ⟨fun err => ⟨synthesize_error_of_error, synthesize_error_of_error⟩, ?_, ?_⟩
  · intro s₁ s₂ h₁ h₂
    obtain ⟨rg, e₁, e₁', hv, hg, hs₁, hr₁, rfl⟩ := synthesize_ok h₁
    obtain ⟨rg', e₂, e₂', -, hg', hs₂, hr₂, rfl⟩ := synthesize_ok h₂
    rw [hg] at hg'
    cases hg'
    have hne := Problem.examples_ne_nil_of_validate hv
    have hm : e₂.maxDepth = e₁.maxDepth :=
      (Enumerator.start_ok hs₂).2.2.2.1.trans (Enumerator.start_ok hs₁).2.2.2.1.symm
    have htwins := (Enumerator.start_twins hg hne hs₁ hs₂).stepWhile e₁.maxDepth hr₁ (hm ▸ hr₂)
    -- both final states are counted: their layers are one fewer than their depth
    have hc₁ := Enumerator.steps_counted (Enumerator.start_counted hs₁)
      ((Enumerator.stepWhile_eq_steps _ _).symm.trans hr₁)
    have hc₂ := Enumerator.steps_counted (Enumerator.start_counted hs₂)
      ((Enumerator.stepWhile_eq_steps _ _).symm.trans hr₂)
    have hdepth := htwins.depth_eq
    simp only [Outcome.elim_eq_noSolution_iff, Enumerator.stats]
    refine ⟨htwins.banks.winner_eq_none_iff, hdepth, by have := hc₁.layers; have := hc₂.layers; omega,
      fun hw₁ => ?_⟩
    have hw₂ : e₂'.bank.winner = none := htwins.banks.winner_eq_none_iff.mp hw₁
    have hgen := htwins.generated hw₁
    have hsize : e₁'.bank.size = e₂'.bank.size := htwins.banks.size_eq hne hw₁
    have ht₁ := hc₁.tallies
    have ht₂ := hc₂.tallies
    simp only [Counters.Tallies, hw₁, hw₂, Option.isSome_none, Bool.false_eq_true, ↓reduceIte]
      at ht₁ ht₂
    exact ⟨hgen, hsize, by omega⟩
  · intro rg hv hg e₁ e₂ hs₁ hs₂ n e₁' e₂' hr₁ hr₂ pre hpre s₁ s₂ hf₁ hf₂
    have hne := Problem.examples_ne_nil_of_validate hv
    have htwins := (Enumerator.start_twins hg hne hs₁ hs₂).stepWhile n hr₁ hr₂
    rw [Enumerator.expected, htwins.forth.left.examples, htwins.forth.left.policy_eq] at hf₁
    rw [Enumerator.expected, htwins.forth.right.examples, htwins.forth.right.policy_eq] at hf₂
    have hmirror := htwins.banks.passes htwins.forth.left.signed hne
      (fun op hop => hpre.subset hop) hf₁ hf₂
    exact ⟨hmirror.isSome_iff, fun hw vs ty => hmirror.mem_signature_iff hne hw (vs, ty)⟩

/-- Over a variable `x` with sums and products and the one example `x = 3 ↦ 27`, keeping the
existing candidate on ties finds `x * x + x * (x + x)` and keeping the new one finds
`x * x + (x + x) * x`, both after two layers at depth three; with the depth bound two neither
finds a solution, and the counts agree. After one layer and the first turn of the next, the
search keeping new candidates has replaced one, neither has a winner, and both banks hold
the same values at the same families. -/
theorem typeDirected_tieBreak_irrelevant_cube :
    let p : Problem := ⟨4, ⟨[.variable, .plus, .times], []⟩, ["x"], [], [⟨⟨[("x", 3)]⟩, .int 27⟩]⟩
    let q : Problem := ⟨2, ⟨[.variable, .plus, .times], []⟩, ["x"], [], [⟨⟨[("x", 3)]⟩, .int 27⟩]⟩
    let rg : ResolvedGrammar := ⟨some .int, [⟨.variable, [], .int⟩,
      ⟨.plus, [.int, .int], .int⟩, ⟨.times, [.int, .int], .int⟩]⟩
    let x : Expr := .var "x" .int
    let square : Expr := .binop .times x x
    let double : Expr := .binop .plus x x
    let s₁ : Synthesis :=
      ⟨.found (.binop .plus square (.binop .times x double)), ⟨3, 2, 21, 12, 8, 0⟩⟩
    let s₂ : Synthesis :=
      ⟨.found (.binop .plus square (.binop .times double x)), ⟨3, 2, 21, 12, 0, 8⟩⟩
    let t₁ : Synthesis := ⟨.noSolution, ⟨2, 1, 7, 6, 1, 0⟩⟩
    let t₂ : Synthesis := ⟨.noSolution, ⟨2, 1, 7, 6, 0, 1⟩⟩
    synthesize p .typeDirected .keepExisting = .ok s₁ ∧
    synthesize p .typeDirected .keepNew = .ok s₂ ∧
    ((s₁.outcome = .noSolution ↔ s₂.outcome = .noSolution) ∧
      s₁.stats.depth = s₂.stats.depth ∧ s₁.stats.layers = s₂.stats.layers) ∧
    synthesize q .typeDirected .keepExisting = .ok t₁ ∧
    synthesize q .typeDirected .keepNew = .ok t₂ ∧
    ((t₁.outcome = .noSolution ↔ t₂.outcome = .noSolution) ∧
      t₁.stats.depth = t₂.stats.depth ∧ t₁.stats.layers = t₂.stats.layers ∧
      (t₁.outcome = .noSolution →
        t₁.stats.generated = t₂.stats.generated ∧ t₁.stats.retained = t₂.stats.retained ∧
        t₁.stats.discarded + t₁.stats.replaced = t₂.stats.discarded + t₂.stats.replaced)) ∧
    p.validate = .ok () ∧ p.grammar.resolve = .ok rg ∧
    ∃ e₁ e₂ e₁' e₂' b₁ b₂,
      Enumerator.start rg (p.terminals rg) p.examples p.maxDepth .typeDirected .keepExisting =
        .ok e₁ ∧
      Enumerator.start rg (p.terminals rg) p.examples p.maxDepth .typeDirected .keepNew = .ok e₂ ∧
      Enumerator.stepWhile 1 e₁ = .ok e₁' ∧ Enumerator.stepWhile 1 e₂ = .ok e₂' ∧
      (rg.ops.take 1).foldlM (Enumerator.turn e₁'.expected e₁'.policy) (e₁'.bank, e₁'.counters) =
        .ok b₁ ∧
      (rg.ops.take 1).foldlM (Enumerator.turn e₂'.expected e₂'.policy) (e₂'.bank, e₂'.counters) =
        .ok b₂ ∧
      b₁.1.winner = none ∧ 0 < b₂.2.replaced ∧
      (b₁.1.winner.isSome ↔ b₂.1.winner.isSome) ∧
      (b₁.1.winner = none → ∀ vs ty, (vs, ty) ∈ b₁.1.signature ↔ (vs, ty) ∈ b₂.1.signature) := by
  intro p q rg x square double s₁ s₂ t₁ t₂
  have h₁ : synthesize p .typeDirected .keepExisting = .ok s₁ := by cbv
  have h₂ : synthesize p .typeDirected .keepNew = .ok s₂ := by cbv
  have hq₁ : synthesize q .typeDirected .keepExisting = .ok t₁ := by cbv
  have hq₂ : synthesize q .typeDirected .keepNew = .ok t₂ := by cbv
  have hv : p.validate = .ok () := by decide
  have hg : p.grammar.resolve = .ok rg := by decide
  have hsame := typeDirected_tieBreak_irrelevant p .keepExisting .keepNew
  obtain ⟨hout, hdepth, hlayers, -⟩ := hsame.2.1 s₁ s₂ h₁ h₂
  -- each run to the boundary after one layer and the first turn of the next, evaluated once
  obtain ⟨b₁, b₂, hrun₁, hrun₂, hnone, hreplaced⟩ : ∃ b₁ b₂,
      (do
        let e ← Enumerator.start rg (p.terminals rg) p.examples p.maxDepth .typeDirected
          .keepExisting
        let e' ← Enumerator.stepWhile 1 e
        (rg.ops.take 1).foldlM (Enumerator.turn e'.expected e'.policy) (e'.bank, e'.counters)) =
        .ok b₁ ∧
      (do
        let e ← Enumerator.start rg (p.terminals rg) p.examples p.maxDepth .typeDirected .keepNew
        let e' ← Enumerator.stepWhile 1 e
        (rg.ops.take 1).foldlM (Enumerator.turn e'.expected e'.policy) (e'.bank, e'.counters)) =
        .ok b₂ ∧
      b₁.1.winner = none ∧ 0 < b₂.2.replaced :=
    ⟨_, _, by cbv, by cbv, rfl, by decide⟩
  obtain ⟨e₁, hs₁, hstep₁⟩ := Except.bind_eq_ok.mp hrun₁
  obtain ⟨e₁', hw₁, hb₁⟩ := Except.bind_eq_ok.mp hstep₁
  obtain ⟨e₂, hs₂, hstep₂⟩ := Except.bind_eq_ok.mp hrun₂
  obtain ⟨e₂', hw₂, hb₂⟩ := Except.bind_eq_ok.mp hstep₂
  exact ⟨h₁, h₂, ⟨hout, hdepth, hlayers⟩, hq₁, hq₂,
    (typeDirected_tieBreak_irrelevant q .keepExisting .keepNew).2.1 t₁ t₂ hq₁ hq₂, hv, hg,
    e₁, e₂, e₁', e₂', b₁, b₂, hs₁, hs₂, hw₁, hw₂, hb₁, hb₂, hnone, hreplaced,
    hsame.2.2 rg hv hg e₁ e₂ hs₁ hs₂ 1 e₁' e₂' hw₁ hw₂ _ (List.take_prefix 1 _) b₁ b₂ hb₁ hb₂⟩

end ExprSynth
