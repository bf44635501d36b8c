import ExprSynth.Proofs.Layers

/-! Sort soundness of the search. Candidates are labelled with the result family of the
operator that built them and pools are chosen by that label, so the search stays sound
only if every label is right. It is: every candidate handed to the bank, from the
terminals on, is well sorted at its label with one value of that family per example.
Hence no evaluation fails once the terminals are in, and no step or run returns an
error. -/
namespace ExprSynth

namespace Enumerator

/-- The invariant of a well-sorted search: every operator of its grammar has a catalog
signature, and its bank keeps only well-sorted candidates. -/
structure SortedSearch (e : Enumerator) : Prop where
  signed : ∀ op ∈ e.grammar.ops, op.kind.HasSignature op.args op.ret
  sorted : e.bank.All (Candidate.Sorted e.examples)

section Visits

variable {exs : List Example} {op : Operator} {policy : Policy} {b : Bank}

/-- A candidate built from a tuple of the pools of a bank of well-sorted candidates is
built without error and well sorted. -/
theorem built_sorted (hsig : op.kind.HasSignature op.args op.ret)
    (hb : b.All (Candidate.Sorted exs)) {args : List Candidate}
    (hargs : args ∈ tuples (policy.pools op b)) {r : Except EvalError Candidate}
    (hr : Candidate.node? op.kind op.ret (exs.map (·.output)) args = some r) :
    ∃ c, r = .ok c ∧ c.Sorted exs := by
  have hchildren : ∀ i (h : i < args.length),
      args[i].Sorted exs ∧ op.args[i]? = some args[i].ty := by
    intro i h
    obtain ⟨hmem, hty⟩ := Policy.mem_tuples_pools hargs i h
    exact ⟨hb.1 _ hmem, hty⟩
  rcases Candidate.node?_sorted hsig hchildren with hnone | ⟨c, hc, hsorted⟩
  · rw [hnone] at hr
    cases hr
  · rw [hc] at hr
    cases hr
    exact ⟨c, rfl, hsorted⟩

/-- An operator pass over the pools of a bank of well-sorted candidates returns, and the
bank stays so. -/
theorem passOp_sorted (hsig : op.kind.HasSignature op.args op.ret) {s : Bank × Counters}
    (hs : s.1.All (Candidate.Sorted exs)) (hw : s.1.winner.isSome = false) :
    ∃ s', passOp (exs.map (·.output)) policy op s = .ok s' ∧
      s'.1.All (Candidate.Sorted exs) := by
  rw [passOp_eq _ _ _ _ hw]
  apply foldlM_preserves (P := fun s : Bank × Counters => s.1.All (Candidate.Sorted exs)) _ _ _ hs
  intro t ht args hargs
  split
  · exact ⟨t, rfl, ht⟩
  · unfold visit
    split
    · exact ⟨t, rfl, ht⟩
    · rename_i err hnode
      obtain ⟨c, hc, -⟩ := built_sorted hsig hs hargs hnode
      cases hc
    · rename_i c hnode
      obtain ⟨c', hc', hsorted⟩ := built_sorted hsig hs hargs hnode
      cases hc'
      exact ⟨_, rfl, ht.insert hsorted⟩

end Visits

theorem turn_sorted {e : Enumerator} (hsearch : e.SortedSearch) {s : Bank × Counters}
    (hs : s.1.All (Candidate.Sorted e.examples)) {op : Operator} (hop : op ∈ e.grammar.ops) :
    ∃ s', turn e.expected e.policy s op = .ok s' ∧ s'.1.All (Candidate.Sorted e.examples) := by
  unfold turn
  split
  · exact ⟨s, rfl, hs⟩
  · rename_i hskip
    have hw : s.1.winner.isSome = false := by simpa using fun h => hskip (.inl h)
    exact passOp_sorted (hsearch.signed op hop) hs hw

theorem SortedSearch.step {e : Enumerator} (hsearch : e.SortedSearch) :
    ∃ e' phase, e.step = .ok (e', phase) ∧ e'.SortedSearch := by
  obtain ⟨e', phase, hstep, hsorted, hg, hx, -, -⟩ :=
    step_preserves (P := Bank.All (Candidate.Sorted e.examples))
      (fun _ hs _ hop => turn_sorted hsearch hs hop) hsearch.sorted
  refine ⟨e', phase, hstep, ⟨?_, ?_⟩⟩
  · rw [hg]
    exact hsearch.signed
  · rw [hx]
    exact hsorted

theorem SortedSearch.reaches {e e' : Enumerator} (run : e.Reaches e') (hsearch : e.SortedSearch) :
    e'.SortedSearch := by
  induction run with
  | refl => exact hsearch
  | step _ last ih =>
      obtain ⟨e₁, phase, hstep, hsorted⟩ := ih.step
      rw [last] at hstep
      cases hstep
      exact hsorted

theorem SortedSearch.passes {e : Enumerator} (hsearch : e.SortedSearch) {s s' : Bank × Counters}
    (run : e.Passes s s') (hs : s.1.All (Candidate.Sorted e.examples)) :
    s'.1.All (Candidate.Sorted e.examples) := by
  induction run with
  | refl => exact hs
  | turn _ mem last ih =>
      obtain ⟨s₁, hturn, hsorted⟩ := turn_sorted hsearch ih mem
      rw [last] at hturn
      cases hturn
      exact hsorted

/-- The terminals are well sorted at the family they are seeded at. -/
theorem hasTy_of_mem_seeds {t : Terminals} {x : Expr × Ty} (hx : x ∈ seeds t) : x.1.HasTy x.2 := by
  simp only [seeds, List.mem_append, List.mem_map, List.mem_singleton] at hx
  rcases hx with (⟨n, -, rfl⟩ | ⟨v, -, rfl⟩) | rfl
  · exact .const n
  · exact .var v t.variableTy
  · exact .falseLit

theorem start_sortedSearch {g : Grammar} {rg : ResolvedGrammar} {t : Terminals}
    {exs : List Example} {maxDepth : Nat} {policy : Policy} {tb : TieBreak} {e : Enumerator}
    (hg : g.resolve = .ok rg) (hstart : start rg t exs maxDepth policy tb = .ok e) :
    e.SortedSearch := by
  obtain ⟨hgrammar, hexs, -, -, hbank⟩ := start_ok hstart
  constructor
  · rw [hgrammar]
    exact fun op hop => Grammar.signature_of_resolve hg hop
  · rw [hbank, hexs]
    apply Bank.insertAllFrom_all
    · rintro ⟨expr, ty⟩ hx c hc
      exact Candidate.ofExpr_sorted (hasTy_of_mem_seeds hx) hc
    · exact ⟨by simp [Bank.toList, Bank.empty], by simp [Bank.empty]⟩

/-- Sort soundness of the search, for every grammar that resolves and any terminals,
examples, depth bound, policy and tie break. Every terminal that evaluates is well sorted.
Once the terminals are in, no later step and no run returns an error. At every state the
steps reach, and at every operator's turn of the layer built from it, the bank keeps only
well-sorted candidates, and every candidate built from a tuple of the pools, the ones
handed to the bank included, is built without error and well sorted. -/
theorem search_sorted {g : Grammar} {rg : ResolvedGrammar} {t : Terminals}
    {exs : List Example} {maxDepth : Nat} {policy : Policy} {tb : TieBreak} {e : Enumerator}
    (hg : g.resolve = .ok rg) (hstart : start rg t exs maxDepth policy tb = .ok e) :
    (∀ x ∈ seeds t, ∀ c, Candidate.ofExpr x.1 x.2 exs = .ok c → c.Sorted exs) ∧
    ∀ e', e.Reaches e' →
      (∃ r, e'.step = .ok r) ∧ (∃ r, e'.run = .ok r) ∧
      ∀ s, e'.Passes (e'.bank, e'.counters) s →
        s.1.All (Candidate.Sorted exs) ∧
        ∀ op ∈ rg.ops, ∀ args, List.Forall₂ (· ∈ ·) args (policy.pools op s.1) →
          ∀ r, Candidate.node? op.kind op.ret (exs.map (·.output)) args = some r →
            ∃ c, r = .ok c ∧ c.Sorted exs := by
  have hsearch := start_sortedSearch hg hstart
  obtain ⟨-, hexs, hpolicy, -, -⟩ := start_ok hstart
  refine ⟨fun x hx c hc => Candidate.ofExpr_sorted (hasTy_of_mem_seeds hx) hc, ?_⟩
  intro e' run
  have hsearch' := hsearch.reaches run
  obtain ⟨-, hexs', hpolicy', -⟩ := run.fields
  obtain ⟨e'', phase, hstep, -⟩ := hsearch'.step
  refine ⟨⟨_, hstep⟩, run_ok_of_preserves (fun _ h => h.step) hsearch', ?_⟩
  intro s hpass
  have hs : s.1.All (Candidate.Sorted exs) := by
    rw [← hexs, ← hexs']
    exact hsearch'.passes hpass hsearch'.sorted
  refine ⟨hs, ?_⟩
  intro op hop args hargs r hr
  rw [← hpolicy, ← hpolicy'] at hargs
  exact built_sorted (Grammar.signature_of_resolve hg hop) hs (mem_tuples.mpr hargs) hr

/-- The search for a truth value over `false` and negation, with `true` as the one
example: the terminal `false` evaluates and is retained. -/
theorem search_sorted_negation :
    let g : Grammar := ⟨[.constant], [.not, .falseLit]⟩
    let rg : ResolvedGrammar :=
      ⟨none, [⟨.constant, [], .int⟩, ⟨.falseLit, [], .bool⟩, ⟨.not, [.bool], .bool⟩]⟩
    let t : Terminals := ⟨[], [], .int⟩
    let exs : List Example := [⟨Env.empty, .bool true⟩]
    let e : Enumerator := ⟨rg, exs, .typeDirected, 2,
      (Bank.empty .keepExisting).append ⟨.falseLit, .bool, [.bool false], false⟩, ⟨1, 0, 1, 0, 0⟩⟩
    g.resolve = .ok rg ∧ start rg t exs 2 .typeDirected .keepExisting = .ok e ∧
    (∀ x ∈ seeds t, ∀ c, Candidate.ofExpr x.1 x.2 exs = .ok c → c.Sorted exs) ∧
    ∀ e', e.Reaches e' →
      (∃ r, e'.step = .ok r) ∧ (∃ r, e'.run = .ok r) ∧
      ∀ s, e'.Passes (e'.bank, e'.counters) s →
        s.1.All (Candidate.Sorted exs) ∧
        ∀ op ∈ rg.ops, ∀ args, List.Forall₂ (· ∈ ·) args (Policy.typeDirected.pools op s.1) →
          ∀ r, Candidate.node? op.kind op.ret (exs.map (·.output)) args = some r →
            ∃ c, r = .ok c ∧ c.Sorted exs := by
  intro g rg t exs e
  have hg : g.resolve = .ok rg := by decide
  have hstart : start rg t exs 2 .typeDirected .keepExisting = .ok e := by
    simp [rg, t, exs, e, start, Bank.insertAll, Bank.insertAllFrom, seeds, Candidate.ofExpr,
      Bank.insert, Bank.empty, Expr.eval, Candidate.ofOutputs, Counters.recordAll, Counters.record]
  exact ⟨hg, hstart, search_sorted hg hstart⟩

end Enumerator

end ExprSynth
