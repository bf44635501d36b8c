import ExprSynth.Proofs.PolicyDominance

/-! The search as a state machine, and its statistics. A started search is at depth one with
no layer built; each step that finds it searching builds a layer and raises the depth and the
layer count by one, and a step that finds it over changes nothing, so the depth never passes
the bound and the layers are one fewer than the depth. Every candidate counted as generated
was retained, discarded, replaced an equivalent one or became the winner: the bank is asked
to insert only while it has no winner, so no insertion is frozen. The run returns what steps
reach once the search is over, which they do within the depth bound. -/
namespace ExprSynth

/-! ### Counting insertions -/

/-- The counters account for the bank: every candidate counted as generated was retained,
discarded, replaced an equivalent retained one, or became the winner. -/
def Counters.Tallies (c : Counters) (b : Bank) : Prop :=
  c.generated = b.size + c.discarded + c.replaced + (if b.winner.isSome then 1 else 0)

@[simp] theorem Counters.record_generated (c : Counters) (ins : Insertion) :
    (c.record ins).generated = c.generated + 1 := rfl

@[simp] theorem Counters.record_depth (c : Counters) (ins : Insertion) :
    (c.record ins).depth = c.depth := rfl

@[simp] theorem Counters.record_layers (c : Counters) (ins : Insertion) :
    (c.record ins).layers = c.layers := rfl

@[simp] theorem Bank.size_append (b : Bank) (c : Candidate) : (b.append c).size = b.size + 1 := by
  simp [Bank.size_eq_length_keys]

/-- Removing a retained candidate and appending one keeps the number of retained
candidates. -/
theorem Bank.size_removeAt_append {b : Bank} {pos : Nat} {old : Candidate}
    (hold : b.toList[pos]? = some old) (c : Candidate) :
    ((b.removeAt pos).append c).size = b.size := by
  have hlt : pos < b.keys.length := by
    simpa [Bank.keys] using (List.getElem?_eq_some_iff.mp hold).1
  simp only [Bank.size_eq_length_keys, Bank.keys_append, Bank.keys_removeAt, List.length_append,
    List.length_eraseIdx_of_lt hlt, List.length_singleton]
  omega

/-- An insertion into a well-formed bank without winner is counted as what it did to the
bank, whatever the tie break decides. -/
theorem Counters.Tallies.insert {c : Counters} {b : Bank} (h : c.Tallies b)
    (hb : b.WellFormed) (hw : b.winner = none) (x : Candidate) :
    (c.record (b.insert x).2).Tallies (b.insert x).1 := by
  unfold Tallies at h ⊢
  simp only [hw, Option.isSome_none, Bool.false_eq_true, ↓reduceIte] at h
  rcases hb.insert_cases x with ⟨hs, -⟩ | ⟨-, -, hins⟩ | ⟨-, -, -, hins⟩ |
      ⟨pos, old, -, -, hold, -, ⟨-, hins⟩ | ⟨-, hins⟩⟩
  · simp [hw] at hs
  · -- the winner is counted once
    simp [hins, Counters.record, h]
  · simp [hins, Counters.record, h, hw]
    omega
  · simp [hins, Counters.record, h, hw]
    omega
  · -- the replaced candidate leaves and the new one comes in: the bank keeps its size
    simp only [hins, Counters.record, Bank.size_removeAt_append hold, Bank.winner_append,
      Bank.winner_removeAt, hw, h]
    simp
    omega

theorem Counters.layers_recordAll (c : Counters) (observed : Array Insertion) :
    (c.recordAll observed).layers = c.layers := by
  unfold Counters.recordAll
  rw [← Array.foldl_toList]
  generalize observed.toList = l
  induction l generalizing c with
  | nil => rfl
  | cons i l ih => exact ih (c.record i)

/-- A batch hands its candidates to the bank only while it has no winner, so the counters of
what it observed account for the bank it leaves. -/
theorem Bank.insertAllFrom_tallies {α ε : Type} (build : α → Except ε Candidate)
    (c : Counters) :
    ∀ (items : List α) (acc : Batch ε), acc.bank.WellFormed →
      (c.recordAll acc.observed).Tallies acc.bank →
      (c.recordAll (insertAllFrom build acc items).observed).Tallies
        (insertAllFrom build acc items).bank
  | [], _, _, htally => htally
  | item :: rest, ⟨bank, observed, pulled, failure⟩, hwf, htally => by
      simp only [insertAllFrom]
      split
      · exact htally
      · rename_i hw
        split
        · exact htally
        · rename_i x _
          have hnone : bank.winner = none := by simpa using hw
          refine insertAllFrom_tallies build c rest _ (hwf.insert x) ?_
          rw [Counters.recordAll_push]
          exact htally.insert hwf hnone x

namespace Enumerator

/-! ### Layers -/

section Layers

variable {expected : List Value} {policy : Policy} {op : Operator}

/-- What a layer keeps of a bank and its counters: the bank is well formed, the counters
account for it, and the depth and the layer count are those the layer started with. -/
def Kept (depth layers : Nat) (s : Bank × Counters) : Prop :=
  s.1.WellFormed ∧ s.2.Tallies s.1 ∧ s.2.depth = depth ∧ s.2.layers = layers

/-- What every visit from a bank without winner keeps, a returned turn keeps: once a winner
is set the turn visits no more tuples. -/
theorem turn_invariant_open {I : Bank × Counters → Prop} {s s' : Bank × Counters}
    (hvisit : ∀ t t', I t → t.1.winner = none → ∀ args ∈ tuples (policy.pools op s.1),
      visit expected op t args = .ok t' → I t')
    (hs : I s) (h : turn expected policy s op = .ok s') : I s' := by
  unfold turn at h
  split at h
  · cases h
    exact hs
  · rename_i hskip
    have hw : s.1.winner.isSome = false := by simpa using fun h => hskip (.inl h)
    rw [passOp_eq _ _ _ _ hw] at h
    refine foldlM_invariant ?_ hs h
    intro t t' ht args hargs hstep
    split at hstep
    · cases hstep
      exact ht
    · rename_i hwt
      exact hvisit t t' ht (by simpa using hwt) args hargs hstep

theorem visit_kept {d l : Nat} {s s' : Bank × Counters} {args : List Candidate}
    (hs : Kept d l s) (hw : s.1.winner = none) (h : visit expected op s args = .ok s') :
    Kept d l s' := by
  obtain ⟨hwf, htally, hd, hl⟩ := hs
  unfold visit at h
  split at h
  · cases h
    exact ⟨hwf, htally, hd, hl⟩
  · cases h
  · cases h
    exact ⟨hwf.insert _, htally.insert hwf hw _, hd, hl⟩

theorem turn_kept {d l : Nat} {s s' : Bank × Counters} (hs : Kept d l s)
    (h : turn expected policy s op = .ok s') : Kept d l s' :=
  turn_invariant_open (fun _ _ ht hw _ _ hvisit => visit_kept ht hw hvisit) hs h

/-- A layer keeps the bank well formed and its counters accounting for it, and leaves the
depth and the layer count to the step. -/
theorem addLayer_kept {e e' : Enumerator} (hwf : e.bank.WellFormed)
    (htally : e.counters.Tallies e.bank) (h : e.addLayer = .ok e') :
    Kept e.counters.depth e.counters.layers (e'.bank, e'.counters) :=
  addLayer_invariant (fun _ _ hs _ _ hturn => turn_kept hs hturn) ⟨hwf, htally, rfl, rfl⟩ h

end Layers

/-! ### Steps -/

/-- What every state of a started search keeps: its bank is well formed and its counters
account for it, its depth is at least one and at most the bound (or one, for a bound of
zero), and it has built one layer fewer than its depth. -/
structure Counted (e : Enumerator) : Prop where
  wellFormed : e.bank.WellFormed
  tallies : e.counters.Tallies e.bank
  layers : e.counters.layers + 1 = e.counters.depth
  depth_pos : 1 ≤ e.counters.depth
  depth_le : e.counters.depth ≤ max 1 e.maxDepth

theorem Counted.step {e e' : Enumerator} {phase : Phase} (hc : e.Counted)
    (h : e.step = .ok (e', phase)) : e'.Counted := by
  rcases step_cases h with ⟨-, rfl⟩ | ⟨hphase, e₁, h₁, rfl⟩
  · exact hc
  -- a layer is built only below the bound
  have hbelow := (winner_of_searching hphase).2
  have hm := (addLayer_fields h₁).2.2.2.1
  obtain ⟨hwf, htally, hd, hl⟩ := addLayer_kept hc.wellFormed hc.tallies h₁
  have hlayers := hc.layers
  simp only at hd hl
  refine ⟨hwf, htally, ?_, ?_, ?_⟩ <;> simp only [hd, hl, hm] <;> omega

theorem start_counted {g : ResolvedGrammar} {t : Terminals} {exs : List Example} {m : Nat}
    {policy : Policy} {tb : TieBreak} {e : Enumerator} (h : start g t exs m policy tb = .ok e) :
    e.Counted := by
  obtain ⟨-, rfl⟩ := start_eq h
  refine ⟨(Bank.reaches_insertAll _ _ _).wellFormed (Bank.wellFormed_empty tb),
    Bank.insertAllFrom_tallies _ _ _ _ (Bank.wellFormed_empty tb) ?_, ?_, ?_, ?_⟩
  · simp [Counters.Tallies, Counters.recordAll, Bank.empty, Bank.size]
  · simp [Counters.depth_recordAll, Counters.layers_recordAll]
  · simp [Counters.depth_recordAll]
  · rw [Counters.depth_recordAll]
    exact Nat.le_max_left 1 m

/-- The search after `n` calls of `step`, each of which returns. -/
def steps : Nat → Enumerator → Except EvalError Enumerator
  | 0, e => .ok e
  | n + 1, e => do
      let (e', _) ← e.step
      steps n e'

theorem steps_succ (n : Nat) (e : Enumerator) :
    steps (n + 1) e = (do let (e', _) ← e.step; steps n e') := rfl

/-- Steps of a search that is over change nothing. -/
theorem steps_of_not_searching {e : Enumerator} (h : e.phase ≠ .searching) :
    ∀ n, steps n e = .ok e
  | 0 => rfl
  | n + 1 => by simp [steps_succ, step_of_not_searching h, steps_of_not_searching h n, bind,
      Except.bind]

/-- A bounded run of steps is that many calls of `step`: a step of a search that is over
changes nothing. -/
theorem stepWhile_eq_steps : ∀ (n : Nat) (e : Enumerator), stepWhile n e = steps n e
  | 0, _ => rfl
  | n + 1, e => by
      rw [stepWhile_succ, steps_succ]
      cases e.step with
      | error err => rfl
      | ok r => exact stepWhile_eq_steps n r.1

theorem steps_add (a b : Nat) (e : Enumerator) :
    steps (a + b) e = (do let e' ← steps a e; steps b e') := by
  induction a generalizing e with
  | zero =>
      rw [Nat.zero_add]
      rfl
  | succ a ih =>
      rw [Nat.add_right_comm, steps_succ, steps_succ]
      cases e.step with
      | error err => rfl
      | ok r => exact ih r.1

/-- What calls of `step` reach, the steps of the search reach. -/
theorem steps_reaches : ∀ {n : Nat} {e e' : Enumerator}, steps n e = .ok e' → e.Reaches e'
  | 0, e, _, h => by
      cases h
      exact .refl e
  | n + 1, _, _, h => by
      rw [steps_succ] at h
      obtain ⟨⟨e₁, phase⟩, h₁, hrest⟩ := Except.bind_eq_ok.mp h
      exact .head h₁ (steps_reaches hrest)

theorem steps_counted {e : Enumerator} (hc : e.Counted) :
    ∀ {n : Nat} {e' : Enumerator}, steps n e = .ok e' → e'.Counted
  | 0, _, h => by
      cases h
      exact hc
  | n + 1, _, h => by
      rw [steps_succ] at h
      obtain ⟨⟨e₁, phase⟩, h₁, hrest⟩ := Except.bind_eq_ok.mp h
      exact steps_counted (hc.step h₁) hrest

/-- The depth after `n` steps that leave no winner: each step raises it by one until the
bound is reached. -/
theorem steps_depth : ∀ {n : Nat} {e e' : Enumerator}, steps n e = .ok e' →
    e'.bank.winner = none →
      e'.counters.depth = min (e.counters.depth + n) (max e.counters.depth e.maxDepth)
  | 0, e, e', h, _ => by
      cases h
      omega
  | n + 1, e, e', h, hw => by
      rw [steps_succ] at h
      obtain ⟨⟨e₁, phase⟩, h₁, hrest⟩ := Except.bind_eq_ok.mp h
      dsimp only at hrest
      rcases step_depth h₁ with ⟨hphase, rfl⟩ | ⟨hphase, hd⟩
      · -- the search is over without winner, so at its bound, and stays there
        rw [steps_of_not_searching hphase] at hrest
        cases hrest
        have := maxDepth_le_of_not_searching hphase hw
        omega
      · have hbelow := (winner_of_searching hphase).2
        have hm := (step_fields h₁).2.2.2
        have ih := steps_depth hrest hw
        rw [hd, hm] at ih
        omega

/-- Enough steps end the search: after as many steps as the bound, it is over. -/
theorem steps_not_searching {e e' : Enumerator} (hc : e.Counted)
    (h : steps e.maxDepth e = .ok e') : e'.phase ≠ .searching := by
  intro hphase
  obtain ⟨hw, hbelow⟩ := winner_of_searching hphase
  have hm := (steps_reaches h).fields.2.2.2
  have hd := steps_depth h hw
  have hpos := hc.depth_pos
  omega

/-- A run returns exactly what steps reach once the search is over. -/
theorem run_eq_ok_iff {e : Enumerator} (hc : e.Counted) {r : Option Candidate × Stats} :
    e.run = .ok r ↔
      ∃ n e', steps n e = .ok e' ∧ e'.phase ≠ .searching ∧ r = (e'.bank.winner, e'.stats) := by
  simp only [run, stepWhile_eq_steps]
  constructor
  · intro h
    obtain ⟨e', h', hr⟩ := Except.bind_eq_ok.mp h
    cases hr
    exact ⟨e.maxDepth, e', h', steps_not_searching hc h', rfl⟩
  · rintro ⟨n, e', h', hover, rfl⟩
    -- the state after the bound is over, and every later step stutters on it
    have hfinal : steps e.maxDepth e = .ok e' := by
      rcases Nat.le_total n e.maxDepth with hle | hle
      · rw [← Nat.add_sub_cancel' hle, steps_add, h']
        exact steps_of_not_searching hover _
      · rw [← Nat.add_sub_cancel' hle, steps_add] at h'
        obtain ⟨f, hf, h'⟩ := Except.bind_eq_ok.mp h'
        rw [steps_of_not_searching (steps_not_searching hc hf)] at h'
        cases h'
        exact hf
    simp [hfinal, bind, Except.bind, pure, Except.pure]

theorem phase_eq_succeeded_iff (e : Enumerator) :
    e.phase = .succeeded ↔ e.bank.winner.isSome := by
  unfold phase
  split
  · simp [*]
  · rename_i hw
    simp only [hw, Bool.false_eq_true, iff_false]
    split <;> simp

/-- A search is exhausted only without a winner, at its bound, and a counted one at the
largest depth it can reach. -/
theorem Counted.exhausted {e : Enumerator} (hc : e.Counted) (h : e.phase = .exhausted) :
    e.bank.winner = none ∧ e.counters.depth = max 1 e.maxDepth := by
  unfold phase at h
  split at h
  · cases h
  · rename_i hw
    split at h
    · rename_i hbound
      have hpos := hc.depth_pos
      have hle := hc.depth_le
      exact ⟨by simpa using hw, by omega⟩
    · cases h

end Enumerator

/-- The search as a state machine, for every resolved grammar, terminals, examples, depth bound
`m`, policy and tie break. In every state that returned steps reach from a started search, the
layers built are one fewer than the depth, which is at least one and at most `max 1 m`. Every
candidate counted as generated was retained, discarded, replaced one or became the winner, and
the retained count is the size of the bank. The search has succeeded exactly when a winner is
set, and is exhausted only without one, at depth `max 1 m`. Once it is over a step changes
nothing, and after `n` steps without a winner the depth is `min (1 + n) (max 1 m)`. A run
returns exactly the winner and the statistics of a state that steps reach once the search is
over, with at most `max 1 m - 1` layers built. -/
theorem search_state_machine {g : ResolvedGrammar} {t : Terminals} {exs : List Example}
    {m : Nat} {policy : Policy} {tb : TieBreak} {e : Enumerator}
    (hstart : Enumerator.start g t exs m policy tb = .ok e) :
    ∀ n e', e.steps n = .ok e' →
      (e'.stats.layers + 1 = e'.stats.depth ∧ 1 ≤ e'.stats.depth ∧ e'.stats.depth ≤ max 1 m) ∧
      (e'.stats.generated = e'.stats.retained + e'.stats.discarded + e'.stats.replaced +
          (if e'.bank.winner.isSome then 1 else 0) ∧ e'.stats.retained = e'.bank.size) ∧
      ((e'.phase = .succeeded ↔ e'.bank.winner.isSome) ∧
        (e'.phase = .exhausted → e'.bank.winner = none ∧ e'.stats.depth = max 1 m)) ∧
      (e'.phase ≠ .searching → e'.step = .ok (e', e'.phase)) ∧
      (e'.bank.winner = none → e'.stats.depth = min (1 + n) (max 1 m)) ∧
      ∀ r, e'.run = .ok r ↔ ∃ k e'', e'.steps k = .ok e'' ∧ e''.phase ≠ .searching ∧
        e''.stats.layers ≤ max 1 m - 1 ∧ r = (e''.bank.winner, e''.stats) := by
  intro n e' hsteps
  have hc₀ := Enumerator.start_counted hstart
  have hm₀ : e.maxDepth = m := (Enumerator.start_ok hstart).2.2.2.1
  have hd₀ : e.counters.depth = 1 := by
    obtain ⟨-, rfl⟩ := Enumerator.start_eq hstart
    simp [Counters.depth_recordAll]
  have hc := Enumerator.steps_counted hc₀ hsteps
  have hm : e'.maxDepth = m := (Enumerator.steps_reaches hsteps).fields.2.2.2.trans hm₀
  -- every state steps reach from `e'` is reached from the start too
  have hlater : ∀ k e'', e'.steps k = .ok e'' → e''.Counted ∧ e''.maxDepth = m := by
    intro k e'' hk
    exact ⟨Enumerator.steps_counted hc hk, (Enumerator.steps_reaches hk).fields.2.2.2.trans hm⟩
  refine ⟨⟨hc.layers, hc.depth_pos, hm ▸ hc.depth_le⟩, ⟨hc.tallies, rfl⟩,
    ⟨e'.phase_eq_succeeded_iff, fun h => hm ▸ hc.exhausted h⟩,
    Enumerator.step_of_not_searching, fun hw => ?_, fun r => ?_⟩
  · have hd := Enumerator.steps_depth hsteps hw
    simp only [Enumerator.stats, hd, hd₀, hm₀]
  · rw [Enumerator.run_eq_ok_iff hc]
    constructor
    · rintro ⟨k, e'', hk, hover, rfl⟩
      obtain ⟨hc'', hm''⟩ := hlater k e'' hk
      have := hc''.layers
      have := hc''.depth_le
      exact ⟨k, e'', hk, hover, by simp only [Enumerator.stats]; omega, rfl⟩
    · rintro ⟨k, e'', hk, hover, -, rfl⟩
      exact ⟨k, e'', hk, hover, rfl⟩

/-- A search for a truth value over `false` and negation with `true` as the one example: it
starts with `false` retained, and negation finds `!false` in the first layer. -/
theorem search_state_machine_negation :
    let g : ResolvedGrammar := ⟨none, [⟨.falseLit, [], .bool⟩, ⟨.not, [.bool], .bool⟩]⟩
    let exs : List Example := [⟨Env.empty, .bool true⟩]
    let e : Enumerator := ⟨g, exs, .typeDirected, 2,
      (Bank.empty .keepExisting).append ⟨.falseLit, .bool, [.bool false], false⟩, ⟨1, 0, 1, 0, 0⟩⟩
    Enumerator.start g ⟨[], [], .int⟩ exs 2 .typeDirected .keepExisting = .ok e ∧
    ∀ n e', e.steps n = .ok e' →
      (e'.stats.layers + 1 = e'.stats.depth ∧ 1 ≤ e'.stats.depth ∧ e'.stats.depth ≤ max 1 2) ∧
      (e'.stats.generated = e'.stats.retained + e'.stats.discarded + e'.stats.replaced +
          (if e'.bank.winner.isSome then 1 else 0) ∧ e'.stats.retained = e'.bank.size) ∧
      ((e'.phase = .succeeded ↔ e'.bank.winner.isSome) ∧
        (e'.phase = .exhausted → e'.bank.winner = none ∧ e'.stats.depth = max 1 2)) ∧
      (e'.phase ≠ .searching → e'.step = .ok (e', e'.phase)) ∧
      (e'.bank.winner = none → e'.stats.depth = min (1 + n) (max 1 2)) ∧
      ∀ r, e'.run = .ok r ↔ ∃ k e'', e'.steps k = .ok e'' ∧ e''.phase ≠ .searching ∧
        e''.stats.layers ≤ max 1 2 - 1 ∧ r = (e''.bank.winner, e''.stats) := by
  intro g exs e
  have hstart : Enumerator.start g ⟨[], [], .int⟩ exs 2 .typeDirected .keepExisting = .ok e := by
    simp [g, exs, e, Enumerator.start, Bank.insertAll, Bank.insertAllFrom, Enumerator.seeds,
      Candidate.ofExpr, Bank.insert, Bank.empty, Expr.eval, Candidate.ofOutputs,
      Counters.recordAll, Counters.record]
  exact ⟨hstart, search_state_machine hstart⟩

end ExprSynth
