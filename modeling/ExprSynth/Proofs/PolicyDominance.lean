import ExprSynth.Proofs.Soundness

/-! The type-directed search is never deeper than a search under any other policy, whatever
the tie breaks of the two. Run side by side, layer by layer and operator by operator, the
type-directed search accounts for every candidate the other keeps: a tuple of the other's
pools has the values of a tuple of the type-directed pools, which offer every retained
candidate of the right family, so the type-directed pass of the same operator builds a
candidate with the same values. A winner of the other search therefore has its values built
by the type-directed search in the same layer at the latest. The type-directed search does
not fail where the other returns: the terminals go in alike under any tie break, and no
evaluation fails once they are in. -/
namespace ExprSynth

/-- Two folds over the same list keep a relation between their states when every pair of
returned steps over one item does. -/
theorem foldlM_rel {σ τ β ε : Type} {R : σ → τ → Prop} {f : σ → β → Except ε σ}
    {g : τ → β → Except ε τ} {xs : List β}
    (hstep : ∀ s t, R s t → ∀ x ∈ xs, ∀ s' t', f s x = .ok s' → g t x = .ok t' → R s' t')
    {s s' : σ} {t t' : τ} (h : R s t) (hf : xs.foldlM f s = .ok s')
    (hg : xs.foldlM g t = .ok t') : R s' t' := by
  induction xs generalizing s t with
  | nil =>
      cases hf
      cases hg
      exact h
  | cons x xs ih =>
      rw [List.foldlM_cons] at hf hg
      obtain ⟨s₁, hs₁, hf⟩ := Except.bind_eq_ok.mp hf
      obtain ⟨t₁, ht₁, hg⟩ := Except.bind_eq_ok.mp hg
      exact ih (fun s t hst y hy => hstep s t hst y (by simp [hy]))
        (hstep s t h x (by simp) s₁ t₁ hs₁ ht₁) hf hg

/-! ### The terminals under two tie breaks -/

namespace Bank

/-- Two batches from banks with the same winner set the same winner and fail alike on the
same items, whatever their tie breaks keep. -/
theorem insertAllFrom_winner_failure {α ε : Type} (build : α → Except ε Candidate) :
    ∀ (items : List α) {acc₁ acc₂ : Batch ε}, acc₁.bank.winner = acc₂.bank.winner →
      acc₁.failure = acc₂.failure →
      (insertAllFrom build acc₁ items).bank.winner =
          (insertAllFrom build acc₂ items).bank.winner ∧
        (insertAllFrom build acc₁ items).failure = (insertAllFrom build acc₂ items).failure
  | [], _, _, hw, hf => ⟨hw, hf⟩
  | item :: rest, ⟨b₁, o₁, n₁, f₁⟩, ⟨b₂, o₂, n₂, f₂⟩, hw, hf => by
      simp only at hw hf
      by_cases hs : b₂.winner.isSome
      · simpa [insertAllFrom, hw, hs] using hf
      · cases hc : build item with
        | error e => simp [insertAllFrom, hw, hs, hc]
        | ok c =>
            simp only [insertAllFrom, hw, hs, hc, Bool.false_eq_true, ↓reduceIte]
            exact insertAllFrom_winner_failure build rest (by simp only [winner_insert_eq, hw]) rfl

end Bank

namespace Enumerator

/-- The terminals go in alike under any policy and tie break: a search that starts under one
starts under every other, with the same winner. -/
theorem start_of_start {g : ResolvedGrammar} {t : Terminals} {exs : List Example} {m : Nat}
    {p₁ p₂ : Policy} {tb₁ tb₂ : TieBreak} {e₁ : Enumerator}
    (h : start g t exs m p₁ tb₁ = .ok e₁) :
    ∃ e₂, start g t exs m p₂ tb₂ = .ok e₂ ∧ e₂.bank.winner = e₁.bank.winner := by
  obtain ⟨hfail, rfl⟩ := start_eq h
  obtain ⟨hw, hf⟩ := @Bank.insertAllFrom_winner_failure _ _
    (fun x => Candidate.ofExpr x.1 x.2 exs) (seeds t)
    ⟨Bank.empty tb₂, #[], 0, none⟩ ⟨Bank.empty tb₁, #[], 0, none⟩ rfl rfl
  have hfail₂ : ((Bank.empty tb₂).insertAll (seeds t)
      fun x => Candidate.ofExpr x.1 x.2 exs).failure = none := hf.trans hfail
  cases h₂ : start g t exs m p₂ tb₂ with
  | error err =>
      unfold start at h₂
      dsimp only at h₂
      rw [hfail₂] at h₂
      cases h₂
  | ok e₂ =>
      obtain ⟨-, rfl⟩ := start_eq h₂
      exact ⟨_, rfl, hw⟩

/-- Stepping a search that is over changes nothing, however often. -/
theorem stepWhile_of_not_searching {e : Enumerator} (h : e.phase ≠ .searching) :
    ∀ n, stepWhile n e = .ok e
  | 0 => rfl
  | n + 1 => by simp [stepWhile, h]

/-- A run of `n + 1` steps is a step and a run of `n` more: the step of a search that is
over is a stutter. -/
theorem stepWhile_succ (n : Nat) (e : Enumerator) :
    stepWhile (n + 1) e = (do let (e', _) ← e.step; stepWhile n e') := by
  by_cases h : e.phase = .searching
  · simp [stepWhile, h]
  · rw [step_of_not_searching h]
    simp [stepWhile, h, stepWhile_of_not_searching h, bind, Except.bind]

/-- A step never lowers the depth, and raises it by one when it builds a layer. -/
theorem step_depth {e e' : Enumerator} {phase : Phase} (h : e.step = .ok (e', phase)) :
    (e.phase ≠ .searching ∧ e' = e) ∨
      (e.phase = .searching ∧ e'.counters.depth = e.counters.depth + 1) := by
  rcases step_cases h with ⟨hphase, rfl⟩ | ⟨hphase, e₁, h₁, rfl⟩
  · exact .inl ⟨hphase, rfl⟩
  · exact .inr ⟨hphase, by simp [(addLayer_fields h₁).2.2.2.2]⟩

end Enumerator

/-! ### Synthesis from its parts -/

/-- A synthesis that returns passed the checks of its problem: the problem is valid, its
grammar resolves, and variables are read at the family the grammar places them in. -/
theorem synthesize_checks {p : Problem} {policy : Policy} {tb : TieBreak} {s : Synthesis}
    (h : synthesize p policy tb = .ok s) :
    ∃ rg, p.validate = .ok () ∧ p.grammar.resolve = .ok rg ∧
      variableTyOf rg p.names = .ok (rg.variableTy.getD .int) := by
  unfold synthesize at h
  obtain ⟨u, hv, h⟩ := Except.bind_eq_ok.mp h
  obtain ⟨rg, hg, h⟩ := Except.bind_eq_ok.mp h
  obtain ⟨ty, hty, -⟩ := Except.bind_eq_ok.mp h
  have hty := Except.mapError_eq_ok.mp hty
  exact ⟨rg, Except.mapError_eq_ok.mp hv, Except.mapError_eq_ok.mp hg, variableTyOf_eq hty ▸ hty⟩

/-- A problem that passes its checks is synthesized by starting the search over its
terminals and running it to its end. -/
theorem synthesize_of_run {p : Problem} {policy : Policy} {tb : TieBreak}
    {rg : ResolvedGrammar} {e e' : Enumerator} (hv : p.validate = .ok ())
    (hg : p.grammar.resolve = .ok rg)
    (hty : variableTyOf rg p.names = .ok (rg.variableTy.getD .int))
    (hstart : Enumerator.start rg (p.terminals rg) p.examples p.maxDepth policy tb = .ok e)
    (hrun : Enumerator.stepWhile e.maxDepth e = .ok e') :
    synthesize p policy tb = .ok ⟨(e'.bank.winner.map (·.expr)).elim .noSolution .found, e'.stats⟩ := by
  simp only [Problem.terminals] at hstart
  simp [synthesize, hv, hg, hty, hstart, Enumerator.run, hrun, Except.mapError, bind,
    Except.bind, pure, Except.pure]

/-! ### Banks side by side -/

namespace Bank

/-- The bank `f` of a type-directed search keeps up with the bank `r` of another search over
the examples `exs`: the candidates of `r` are faithful, those of `f` sorted and faithful, `f` is
well formed, and `f` accounts for every candidate `r` keeps, its winner included. -/
structure Dominated (exs : List Example) (r f : Bank) : Prop where
  left : r.All (Candidate.Faithful exs)
  right : f.All fun c => c.Sorted exs ∧ c.Faithful exs
  wellFormed : f.WellFormed
  covers : r.All fun c => f.Covers exs c.expr c.ty

variable {exs : List Example} {r f : Bank}

/-- Unless `f` has a winner, it retains the values of every candidate `r` retains. -/
theorem Dominated.keys (hd : Dominated exs r f) : f.winner.isSome ∨ ∀ k ∈ r.keys, k ∈ f.keys := by
  cases hw : f.winner with
  | some w => exact .inl rfl
  | none =>
      refine .inr fun k hk => ?_
      obtain ⟨c, hc, rfl⟩ := List.mem_map.mp hk
      rcases hd.covers.1 c hc with hsome | ⟨vs, hvs, hx, -⟩
      · simp [hw] at hsome
      · -- the values `f` retains for `c` are what `c` evaluates to, which are its values
        have hvs' : vs = c.outputs :=
          List.map_injective_iff.mpr (fun _ _ h => Except.ok.inj h)
            (hx.symm.trans (hd.left.1 c hc).evals)
        exact hvs' ▸ hvs

/-- Without a winner of its own, `f` leaves `r` none: a winner of `r` succeeds, and `f` would
retain its values, which no retained candidate of `f` has. -/
theorem Dominated.winner_eq_none (hd : Dominated exs r f)
    (hsucc : ∀ w, r.winner = some w → w.success = true) (hw : f.winner = none) :
    r.winner = none := by
  cases hr : r.winner with
  | none => rfl
  | some w =>
      have hrep := (hd.left.2 w hr).reproduces (hsucc w hr)
      exact absurd hrep ((hd.covers.2 w hr).not_reproduces hd.wellFormed
        (hd.right.imp fun _ h => h.2) hw)

end Bank

/-- A tuple of the pools that builds a node takes, position by position, retained candidates
of the families its operator takes there. -/
theorem Policy.forall₂_of_mem_tuples {p : Policy} {op : Operator} {b : Bank}
    {args : List Candidate} (hargs : args ∈ tuples (p.pools op b))
    (hlen : args.length = op.args.length) :
    List.Forall₂ (fun a ty => a ∈ b.toList ∧ a.ty = ty) args op.args := by
  rw [List.forall₂_iff_get]
  refine ⟨hlen, fun i h₁ h₂ => ?_⟩
  obtain ⟨hmem, hty⟩ := Policy.mem_tuples_pools hargs i h₁
  rw [List.getElem?_eq_getElem h₂, Option.some.injEq] at hty
  exact ⟨hmem, hty.symm⟩

namespace Enumerator

section Turns

variable {exs : List Example} {policy : Policy} {op : Operator}

/-- A candidate built from a tuple of the pools of `r`, under any policy, is accounted for by
the type-directed turn of the same operator from a bank that keeps up with `r`: the
type-directed pools offer a tuple with the same values. -/
theorem turn_covers_built (hsig : op.kind.HasSignature op.args op.ret) (hne : exs ≠ [])
    {r : Bank} {f f' : Bank × Counters} (hd : Bank.Dominated exs r f.1) {args : List Candidate}
    {c : Candidate} (hargs : args ∈ tuples (policy.pools op r))
    (hnode : Candidate.node? op.kind op.ret (exs.map (·.output)) args = some (.ok c))
    (hturn : turn (exs.map (·.output)) .typeDirected f op = .ok f') :
    f'.1.Covers exs c.expr c.ty := by
  have hmem := Policy.mem_toList_of_mem_tuples hargs
  obtain ⟨-, hbuild, hty⟩ := Candidate.node?_faithful (fun a ha => hd.left.1 a (hmem a ha)) hnode
  rw [hty]
  have hreach := turn_reaches hturn
  cases hw : f.1.winner with
  | some w => exact .inl (by rw [hreach.eq_of_winner (by simp [hw]), hw]; rfl)
  | none =>
      have hlen : (args.map (·.expr)).length = op.args.length := hsig.length_of_build hbuild
      have harity : op.arity ≠ 0 := by
        have := NodeKind.length_pos_of_build hbuild
        simp only [Operator.arity, ← hlen]
        omega
      -- the children are accounted for by `f`, at the families `op` takes
      have hchildren : List.Forall₂ (fun y ty => f.1.Covers exs y ty) (args.map (·.expr))
          op.args := by
        rw [List.forall₂_map_left_iff]
        exact (Policy.forall₂_of_mem_tuples hargs (by simpa using hlen)).imp
          fun a ty h => h.2 ▸ hd.covers.1 a h.1
      obtain ⟨args', c', hargs', hnode', hx, hty'⟩ :=
        typeDirected_node hsig hne hd.right hw hbuild hchildren
      exact turn_covers hd.wellFormed harity hargs' hnode' hx hty' hturn

/-- The turns of one operator in the two searches keep the type-directed bank up with the
other. -/
theorem Bank.Dominated.turn (hsig : op.kind.HasSignature op.args op.ret) (hne : exs ≠ [])
    {r r' f f' : Bank × Counters} (hd : Bank.Dominated exs r.1 f.1)
    (hturnR : turn (exs.map (·.output)) policy r op = .ok r')
    (hturnF : turn (exs.map (·.output)) .typeDirected f op = .ok f') :
    Bank.Dominated exs r'.1 f'.1 where
  left := turn_all (fun _ hargs _ hnode =>
    (Candidate.node?_faithful (fun a ha => hd.left.1 a (Policy.mem_toList_of_mem_tuples hargs a ha))
      hnode).1) hd.left hturnR
  right := turn_all (fun _ hargs _ hnode => built_accurate hsig hd.right hargs hnode) hd.right hturnF
  wellFormed := (turn_reaches hturnF).wellFormed hd.wellFormed
  covers := turn_all (fun _ hargs _ hnode => turn_covers_built hsig hne hd hargs hnode hturnF)
    (hd.covers.imp fun _ h => h.mono hd.wellFormed (turn_reaches hturnF)) hturnR

end Turns

/-- A search `eR` under the policy `policy` and a type-directed search `eF`, both over the
grammar `g`, the terminals `t` and the examples `exs`, side by side: each keeps sound
candidates, the bank of `eF` keeps up with that of `eR`, and `eF` has the bound of `eR`.
While `eF` has no winner the two are at the same depth; once it has one it is no deeper. -/
structure Dominated (g : ResolvedGrammar) (t : Terminals) (policy : Policy)
    (exs : List Example) (eR eF : Enumerator) : Prop where
  left : eR.Sound g t policy exs
  right : eF.Sound g t .typeDirected exs
  nonempty : exs ≠ []
  maxDepth : eF.maxDepth = eR.maxDepth
  wellFormed : eF.bank.WellFormed
  covers : eR.bank.All fun c => eF.bank.Covers exs c.expr c.ty
  depth_le : eF.counters.depth ≤ eR.counters.depth
  depth_eq : eF.bank.winner = none → eR.counters.depth = eF.counters.depth

variable {g : ResolvedGrammar} {t : Terminals} {policy : Policy} {exs : List Example}

theorem Dominated.banks {eR eF : Enumerator} (h : Dominated g t policy exs eR eF) :
    Bank.Dominated exs eR.bank eF.bank :=
  ⟨h.left.bank.imp fun _ hc => hc.faithful, h.right.bank.imp fun _ hc => ⟨hc.sorted, hc.faithful⟩,
    h.wellFormed, h.covers⟩

/-- Operator by operator, the turns of a layer of `eF` keep up with the same turns of `eR`. -/
theorem Dominated.passes {eR eF : Enumerator} (h : Dominated g t policy exs eR eF)
    {ops : List Operator} (hops : ∀ op ∈ ops, op ∈ g.ops) {sR sF : Bank × Counters}
    (hR : ops.foldlM (turn eR.expected eR.policy) (eR.bank, eR.counters) = .ok sR)
    (hF : ops.foldlM (turn eF.expected eF.policy) (eF.bank, eF.counters) = .ok sF) :
    Bank.Dominated exs sR.1 sF.1 := by
  rw [expected, h.left.examples, h.left.policy_eq] at hR
  rw [expected, h.right.examples, h.right.policy_eq] at hF
  exact foldlM_rel (R := fun s s' : Bank × Counters => Bank.Dominated exs s.1 s'.1)
    (fun _ _ hs op hop _ _ hR' hF' =>
      Bank.Dominated.turn (h.left.signed op (hops op hop)) h.nonempty hs hR' hF')
    h.banks hR hF

theorem addLayer_ok {e e₁ : Enumerator} (h : e.addLayer = .ok e₁) :
    ∃ s, e.grammar.ops.foldlM (turn e.expected e.policy) (e.bank, e.counters) = .ok s ∧
      e₁ = { e with bank := s.1, counters := s.2 } := by
  rw [addLayer_eq] at h
  obtain ⟨s, hfold, h⟩ := Except.bind_eq_ok.mp h
  cases h
  exact ⟨s, hfold, rfl⟩

/-- The two searches stay side by side over one step each. -/
theorem Dominated.step {eR eF eR' eF' : Enumerator} {phR phF : Phase}
    (h : Dominated g t policy exs eR eF) (hR : eR.step = .ok (eR', phR))
    (hF : eF.step = .ok (eF', phF)) : Dominated g t policy exs eR' eF' := by
  have hmR := (step_fields hR).2.2.2
  have hmF := (step_fields hF).2.2.2
  cases hwF : eF.bank.winner with
  | some w =>
      -- `eF` is over; its winner accounts for everything `eR` builds from now on
      have hsF : eF.phase ≠ .searching := fun hs => by simp [(winner_of_searching hs).1] at hwF
      obtain ⟨-, rfl⟩ := (step_cases hF).resolve_right fun h => hsF h.1
      have hdepth : eR.counters.depth ≤ eR'.counters.depth := by
        rcases step_depth hR with ⟨-, rfl⟩ | ⟨-, hd⟩ <;> omega
      refine ⟨h.left.step hR, h.right, h.nonempty, hmR ▸ h.maxDepth, h.wellFormed, ?_,
        Nat.le_trans h.depth_le hdepth, by simp [hwF]⟩
      exact ⟨fun _ _ => .inl (by simp [hwF]), fun _ _ => .inl (by simp [hwF])⟩
  | none =>
      -- without a winner in `eF` neither search has one, and both are at the same depth
      have hwR := h.banks.winner_eq_none h.left.winner hwF
      have hdepth := h.depth_eq hwF
      have hphase : eR.phase = eF.phase := by
        simp only [phase, hwR, hwF, hdepth, h.maxDepth, Option.isSome_none]
      by_cases hsF : eF.phase = .searching
      · -- both build a layer over the whole grammar
        have hsR : eR.phase = .searching := hphase ▸ hsF
        obtain ⟨-, eR₁, hR₁, rfl⟩ := (step_cases hR).resolve_left fun h => h.1 hsR
        obtain ⟨-, eF₁, hF₁, rfl⟩ := (step_cases hF).resolve_left fun h => h.1 hsF
        have hdR := (addLayer_fields hR₁).2.2.2.2
        have hdF := (addLayer_fields hF₁).2.2.2.2
        obtain ⟨sR, hfoldR, rfl⟩ := addLayer_ok hR₁
        obtain ⟨sF, hfoldF, rfl⟩ := addLayer_ok hF₁
        rw [h.right.grammar, ← h.left.grammar] at hfoldF
        have hlayer := h.passes (fun op hop => h.left.grammar ▸ hop) hfoldR hfoldF
        refine ⟨h.left.step hR, h.right.step hF, h.nonempty, by simp [h.maxDepth],
          hlayer.wellFormed, hlayer.covers, ?_, fun _ => ?_⟩ <;>
          simp only at hdR hdF ⊢ <;> omega
      · have hsR : eR.phase ≠ .searching := hphase ▸ hsF
        obtain ⟨-, rfl⟩ := (step_cases hR).resolve_right fun h => hsR h.1
        obtain ⟨-, rfl⟩ := (step_cases hF).resolve_right fun h => hsF h.1
        exact h

/-- Runs of the same number of steps keep the two searches side by side. -/
theorem Dominated.stepWhile {eR eF : Enumerator} (h : Dominated g t policy exs eR eF) :
    ∀ (n : Nat) {eR' eF' : Enumerator}, stepWhile n eR = .ok eR' → stepWhile n eF = .ok eF' →
      Dominated g t policy exs eR' eF' := by
  intro n
  induction n generalizing eR eF with
  | zero =>
      intro eR' eF' hR hF
      cases hR
      cases hF
      exact h
  | succ n ih =>
      intro eR' eF' hR hF
      rw [stepWhile_succ] at hR hF
      obtain ⟨⟨eR₁, phR⟩, hR₁, hR⟩ := Except.bind_eq_ok.mp hR
      obtain ⟨⟨eF₁, phF⟩, hF₁, hF⟩ := Except.bind_eq_ok.mp hF
      exact ih (h.step hR₁ hF₁) hR hF

/-- Two searches started over the same grammar, terminals, examples and bound, one under any
policy and one type-directed, with any tie breaks, start side by side: the terminals the first
keeps went into the second too. -/
theorem start_dominated {gr : Grammar} {m : Nat} {tb₁ tb₂ : TieBreak} {eR eF : Enumerator}
    (hg : gr.resolve = .ok g) (hne : exs ≠ []) (hR : start g t exs m policy tb₁ = .ok eR)
    (hF : start g t exs m .typeDirected tb₂ = .ok eF) : Dominated g t policy exs eR eF := by
  have hsR := start_sound hg hR
  have hsF := start_sound hg hF
  -- the terminals the restricted search retains, the type-directed one accounts for
  have hseeds := start_seeded hR
  have hcovF := fun x ty (hx : (x, ty) ∈ seeds t) => start_covers hF hx
  obtain ⟨-, rfl⟩ := start_eq hR
  obtain ⟨-, rfl⟩ := start_eq hF
  refine ⟨hsR, hsF, hne, rfl, (Bank.reaches_insertAll _ _ _).wellFormed (Bank.wellFormed_empty tb₂),
    ?_, by simp [Counters.depth_recordAll], fun _ => by simp [Counters.depth_recordAll]⟩
  refine hseeds.imp ?_
  rintro c ⟨⟨expr, ty⟩, hx, hc⟩
  obtain ⟨rfl, rfl⟩ := Candidate.ofExpr_expr_ty hc
  exact hcovF c.expr c.ty hx

end Enumerator

/-- The type-directed search is never deeper than a restricted one, whatever the
restrictions and the tie breaks. When the restricted synthesis finds an expression, the
type-directed synthesis of the same problem finds one too, at a depth no greater. Run side by
side from their starts, after the same number of steps and at the start of the same
operator's turn in the layer, the type-directed search retains the values of every candidate
the restricted one retains, unless it already has a winner. -/
theorem typeDirected_never_deeper {p : Problem} {r : Restrictions} {tb₁ tb₂ : TieBreak} :
    (∀ sR x, synthesize p (.restricted r) tb₁ = .ok sR → sR.outcome = .found x →
      ∃ sF y, synthesize p .typeDirected tb₂ = .ok sF ∧ sF.outcome = .found y ∧
        sF.stats.depth ≤ sR.stats.depth) ∧
    ∀ rg, p.validate = .ok () → p.grammar.resolve = .ok rg →
    ∀ eR eF, Enumerator.start rg (p.terminals rg) p.examples p.maxDepth (.restricted r) tb₁ = .ok eR →
      Enumerator.start rg (p.terminals rg) p.examples p.maxDepth .typeDirected tb₂ = .ok eF →
      ∀ n eR' eF', Enumerator.stepWhile n eR = .ok eR' → Enumerator.stepWhile n eF = .ok eF' →
      ∀ pre, pre <+: rg.ops → ∀ sR sF,
        pre.foldlM (Enumerator.turn eR'.expected eR'.policy) (eR'.bank, eR'.counters) = .ok sR →
        pre.foldlM (Enumerator.turn eF'.expected eF'.policy) (eF'.bank, eF'.counters) = .ok sF →
        sF.1.winner.isSome ∨ ∀ k ∈ sR.1.keys, k ∈ sF.1.keys := by
  refine ⟨?_, ?_⟩
  · intro sR x h hfound
    obtain ⟨rg, eR, eR', hv, hg, hstartR, hrunR, rfl⟩ := synthesize_ok h
    obtain ⟨rg', -, hg', hty⟩ := synthesize_checks h
    rw [hg] at hg'
    cases hg'
    obtain ⟨eF, hstartF, -⟩ : ∃ eF, Enumerator.start rg (p.terminals rg) p.examples p.maxDepth
        .typeDirected tb₂ = .ok eF ∧ _ := Enumerator.start_of_start hstartR
    -- the type-directed run returns, since no evaluation fails once the terminals are in
    obtain ⟨eF', hrunF, -⟩ := Enumerator.stepWhile_preserves (fun _ h => h.step) eF.maxDepth eF
      (Enumerator.start_sortedSearch hg hstartF)
    have hm : eF.maxDepth = eR.maxDepth :=
      (Enumerator.start_ok hstartF).2.2.2.1.trans (Enumerator.start_ok hstartR).2.2.2.1.symm
    have hdom := (Enumerator.start_dominated hg (Problem.examples_ne_nil_of_validate hv) hstartR
      hstartF).stepWhile eR.maxDepth hrunR (hm ▸ hrunF)
    cases hwR : eR'.bank.winner with
    | none => simp [hwR] at hfound
    | some w =>
        cases hwF : eF'.bank.winner with
        | none => simp [hdom.banks.winner_eq_none hdom.left.winner hwF] at hwR
        | some w' =>
            refine ⟨_, w'.expr, synthesize_of_run hv hg hty hstartF hrunF, by simp [hwF], ?_⟩
            exact hdom.depth_le
  · intro rg hv hg eR eF hstartR hstartF n eR' eF' hrunR hrunF pre hpre sR sF hR hF
    have hdom := (Enumerator.start_dominated hg (Problem.examples_ne_nil_of_validate hv) hstartR
      hstartF).stepWhile n hrunR hrunF
    exact (hdom.passes (fun op hop => hpre.subset hop) hR hF).keys

/-- Over a variable `x` with sums and products and the one example `x = 3 ↦ 27`, the search
under the standard restrictions, whose products take only variables and constants, finds
`x * x + (x * x + x * x)` after three layers, at depth four. The type-directed search,
keeping the new candidate on ties, finds a solution at depth three. After one layer and the
first turn of the next neither search has a winner, the type-directed bank holds more
values than the restricted one, and every value the restricted bank holds is among them. -/
theorem typeDirected_never_deeper_cube :
    let p : Problem := ⟨4, ⟨[.variable, .plus, .times], []⟩, ["x"], [], [⟨⟨[("x", 3)]⟩, .int 27⟩]⟩
    let rg : ResolvedGrammar := ⟨some .int, [⟨.variable, [], .int⟩,
      ⟨.plus, [.int, .int], .int⟩, ⟨.times, [.int, .int], .int⟩]⟩
    let square : Expr := .binop .times (.var "x" .int) (.var "x" .int)
    let sR : Synthesis :=
      ⟨.found (.binop .plus square (.binop .plus square square)), ⟨4, 3, 32, 9, 22, 0⟩⟩
    synthesize p (.restricted .standard) .keepExisting = .ok sR ∧
    (∃ sF y, synthesize p .typeDirected .keepNew = .ok sF ∧ sF.outcome = .found y ∧
      sF.stats.depth ≤ sR.stats.depth) ∧
    p.validate = .ok () ∧ p.grammar.resolve = .ok rg ∧
    ∃ eR eF eR' eF' bR bF,
      Enumerator.start rg (p.terminals rg) p.examples p.maxDepth (.restricted .standard)
        .keepExisting = .ok eR ∧
      Enumerator.start rg (p.terminals rg) p.examples p.maxDepth .typeDirected .keepNew = .ok eF ∧
      Enumerator.stepWhile 1 eR = .ok eR' ∧ Enumerator.stepWhile 1 eF = .ok eF' ∧
      (rg.ops.take 1).foldlM (Enumerator.turn eR'.expected eR'.policy) (eR'.bank, eR'.counters) =
        .ok bR ∧
      (rg.ops.take 1).foldlM (Enumerator.turn eF'.expected eF'.policy) (eF'.bank, eF'.counters) =
        .ok bF ∧
      bR.1.winner = none ∧ bF.1.winner = none ∧ bR.1.keys.length < bF.1.keys.length ∧
      (bF.1.winner.isSome ∨ ∀ k ∈ bR.1.keys, k ∈ bF.1.keys) := by
  intro p rg square sR
  have h : synthesize p (.restricted .standard) .keepExisting = .ok sR := by cbv
  have hv : p.validate = .ok () := by decide
  have hg : p.grammar.resolve = .ok rg := by decide
  have hdom := @typeDirected_never_deeper p .standard .keepExisting .keepNew
  -- each run to the boundary after one layer and the first turn of the next, evaluated once
  obtain ⟨bR, bF, hrunR, hrunF, hnoneR, hnoneF, hlen⟩ : ∃ bR bF,
      (do
        let e ← Enumerator.start rg (p.terminals rg) p.examples p.maxDepth (.restricted .standard)
          .keepExisting
        let e' ← Enumerator.stepWhile 1 e
        (rg.ops.take 1).foldlM (Enumerator.turn e'.expected e'.policy) (e'.bank, e'.counters)) =
        .ok bR ∧
      (do
        let e ← Enumerator.start rg (p.terminals rg) p.examples p.maxDepth .typeDirected .keepNew
        let e' ← Enumerator.stepWhile 1 e
        (rg.ops.take 1).foldlM (Enumerator.turn e'.expected e'.policy) (e'.bank, e'.counters)) =
        .ok bF ∧
      bR.1.winner = none ∧ bF.1.winner = none ∧ bR.1.keys.length < bF.1.keys.length :=
    ⟨_, _, by cbv, by cbv, rfl, rfl, by decide⟩
  obtain ⟨eR, hsR, hstepR⟩ := Except.bind_eq_ok.mp hrunR
  obtain ⟨eR', hwR, hbR⟩ := Except.bind_eq_ok.mp hstepR
  obtain ⟨eF, hsF, hstepF⟩ := Except.bind_eq_ok.mp hrunF
  obtain ⟨eF', hwF, hbF⟩ := Except.bind_eq_ok.mp hstepF
  exact ⟨h, hdom.1 sR _ h rfl, hv, hg, eR, eF, eR', eF', bR, bF, hsR, hsF, hwR, hwF, hbR, hbF,
    hnoneR, hnoneF, hlen,
    hdom.2 rg hv hg eR eF hsR hsF 1 eR' eF' hwR hwF _ (List.take_prefix 1 _) bR bF hbR hbF⟩

end ExprSynth
