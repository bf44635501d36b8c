import ExprSynth.Search.Enumerator
import ExprSynth.Proofs.Batches
import ExprSynth.Proofs.Sorts

/-! The layers of the search as folds. An operator pass visits the tuples of its pools in
order, skipping the rest once a winner is set; a layer folds the passes of the grammar's
operators; a step builds a layer. Invariants of the bank that every visit keeps are
therefore kept by whole runs, and a run that visits only buildable tuples never fails. -/
namespace ExprSynth

/-! ### Tuples of pools -/

/-- The tuples that take one item from each pool, the first position varying slowest: the
order in which `foldTuples` visits them. -/
def tuples {α : Type} : List (List α) → List (List α)
  | [] => [[]]
  | pool :: rest => pool.flatMap fun a => (tuples rest).map (a :: ·)

theorem mem_tuples {α : Type} {pools : List (List α)} {args : List α} :
    args ∈ tuples pools ↔ List.Forall₂ (· ∈ ·) args pools := by
  induction pools generalizing args with
  | nil => cases args <;> simp [tuples]
  | cons pool rest ih =>
      cases args with
      | nil => simp [tuples]
      | cons a args => simp [tuples, ih, and_comm]

section Folds

variable {σ β ε : Type}

theorem foldlM_flatMap {γ : Type} (f : σ → β → Except ε σ) (xs : List γ) (g : γ → List β)
    (s : σ) :
    (xs.flatMap g).foldlM f s = xs.foldlM (fun s x => (g x).foldlM f s) s := by
  induction xs generalizing s with
  | nil => rfl
  | cons x xs ih =>
      simp only [List.flatMap_cons, List.foldlM_append, List.foldlM_cons]
      cases (g x).foldlM f s with
      | error e => rfl
      | ok s' => exact ih s'

theorem foldlM_guarded_of_stop (stop : σ → Bool) (visit : σ → β → Except ε σ) (xs : List β)
    {s : σ} (h : stop s = true) :
    xs.foldlM (fun s x => if stop s then pure s else visit s x) s = .ok s := by
  induction xs with
  | nil => rfl
  | cons x xs ih => simpa [List.foldlM_cons, h] using ih

/-- `foldTuples` is the fold over the tuples of its pools, each visit skipped once `stop`
holds. -/
theorem foldTuples_eq_foldlM {α : Type} (stop : σ → Bool) (visit : σ → List α → Except ε σ)
    (pools : List (List α)) (chosen : List α) (s : σ) (h : stop s = false) :
    foldTuples stop visit pools chosen s =
      (tuples pools).foldlM
        (fun s args => if stop s then pure s else visit s (chosen.reverse ++ args)) s := by
  induction pools generalizing chosen s with
  | nil => simp [foldTuples, tuples, h]
  | cons pool rest ih =>
      simp only [foldTuples, tuples]
      rw [foldlM_flatMap]
      congr 1
      funext s' a
      rw [List.foldlM_map]
      cases hstop : stop s' with
      | true => exact (foldlM_guarded_of_stop stop _ _ hstop).symm
      | false =>
          simp only [Bool.false_eq_true, ↓reduceIte, ih (a :: chosen) s' hstop,
            List.reverse_cons, List.append_assoc, List.singleton_append]

/-- A fold that returns on every item from a state with `P`, into a state with `P`,
returns from any state with `P`, into a state with `P`. -/
theorem foldlM_preserves {P : σ → Prop} (f : σ → β → Except ε σ) (xs : List β)
    (hstep : ∀ s, P s → ∀ x ∈ xs, ∃ s', f s x = .ok s' ∧ P s') {s : σ} (hs : P s) :
    ∃ s', xs.foldlM f s = .ok s' ∧ P s' := by
  induction xs generalizing s with
  | nil => exact ⟨s, rfl, hs⟩
  | cons x xs ih =>
      obtain ⟨s₁, h₁, hs₁⟩ := hstep s hs x (by simp)
      obtain ⟨s', h', hs'⟩ := ih (fun s hs y hy => hstep s hs y (by simp [hy])) hs₁
      exact ⟨s', by simpa only [List.foldlM_cons, h₁, bind, Except.bind] using h', hs'⟩

theorem foldlM_invariant {P : σ → Prop} {f : σ → β → Except ε σ} {xs : List β}
    (hstep : ∀ s s', P s → ∀ x ∈ xs, f s x = .ok s' → P s') {s s' : σ} (hs : P s)
    (h : xs.foldlM f s = .ok s') : P s' := by
  induction xs generalizing s with
  | nil =>
      cases h
      exact hs
  | cons x xs ih =>
      rw [List.foldlM_cons] at h
      obtain ⟨s₁, h₁, h⟩ := Except.bind_eq_ok.mp h
      exact ih (fun s s' hs y hy => hstep s s' hs y (by simp [hy]))
        (hstep s s₁ hs x (by simp) h₁) h

/-- A fact that the visit of one item establishes, and that every later step keeps, holds
after the fold; `I` is what every step keeps. -/
theorem foldlM_establishes {I Q : σ → Prop} {f : σ → β → Except ε σ} {xs : List β} {x : β}
    (hstep : ∀ s s', I s → ∀ y ∈ xs, f s y = .ok s' → I s' ∧ (Q s → Q s'))
    (hvisit : ∀ s s', I s → f s x = .ok s' → Q s') (hx : x ∈ xs) {s s' : σ} (hs : I s)
    (h : xs.foldlM f s = .ok s') : Q s' := by
  induction xs generalizing s with
  | nil => cases hx
  | cons y ys ih =>
      rw [List.foldlM_cons] at h
      obtain ⟨s₁, h₁, hrest⟩ := Except.bind_eq_ok.mp h
      have hs₁ := hstep s s₁ hs y (by simp) h₁
      rcases List.mem_cons.mp hx with rfl | hx
      · -- the rest of the fold keeps what the visit established
        have hkept := foldlM_invariant (P := fun s => I s ∧ Q s)
          (fun t t' ht z hz hz' => by
            have hnext := hstep t t' ht.1 z (by simp [hz]) hz'
            exact ⟨hnext.1, hnext.2 ht.2⟩)
          ⟨hs₁.1, hvisit s s₁ hs h₁⟩ hrest
        exact hkept.2
      · exact ih (fun t t' ht z hz => hstep t t' ht z (by simp [hz])) hx hs₁.1 hrest

end Folds

/-! ### Argument pools -/

theorem Bank.mem_poolOf {b : Bank} {ty : Ty} {a : Candidate} :
    a ∈ b.poolOf ty ↔ a ∈ b.toList ∧ a.ty = ty := by
  simp [Bank.poolOf]

/-- The pool at a position holds retained candidates of the family the operator takes
there, under either policy. -/
theorem Policy.mem_pools {p : Policy} {op : Operator} {b : Bank} {i : Nat}
    {pool : List Candidate} (hpool : (p.pools op b)[i]? = some pool) {a : Candidate}
    (ha : a ∈ pool) : a ∈ b.toList ∧ op.args[i]? = some a.ty := by
  have typed : ∀ ty, op.args[i]? = some ty → pool = b.poolOf ty →
      a ∈ b.toList ∧ op.args[i]? = some a.ty := by
    rintro ty hty rfl
    obtain ⟨hmem, rfl⟩ := Bank.mem_poolOf.mp ha
    exact ⟨hmem, hty⟩
  unfold Policy.pools at hpool
  split at hpool
  · obtain ⟨ty, hty, rfl⟩ := by simpa using hpool
    exact typed ty hty rfl
  · split at hpool
    · obtain ⟨ty, hty, rfl⟩ := by simpa using hpool
      exact typed ty hty rfl
    · rw [List.getElem?_map] at hpool
      obtain ⟨⟨allowed, ty⟩, hzip, rfl⟩ := Option.map_eq_some_iff.mp hpool
      have hty : op.args[i]? = some ty := (List.getElem?_zip_eq_some.mp hzip).2
      obtain ⟨hmem, rfl⟩ := Bank.mem_poolOf.mp (List.mem_filter.mp ha).1
      exact ⟨hmem, hty⟩

/-- Every tuple of the pools takes at each position a retained candidate of the family the
operator takes there. -/
theorem Policy.mem_tuples_pools {p : Policy} {op : Operator} {b : Bank}
    {args : List Candidate} (hargs : args ∈ tuples (p.pools op b)) :
    ∀ i (h : i < args.length), args[i] ∈ b.toList ∧ op.args[i]? = some args[i].ty := by
  have hall := mem_tuples.mp hargs
  intro i h
  have hlen : i < (p.pools op b).length := hall.length_eq ▸ h
  exact Policy.mem_pools (List.getElem?_eq_getElem hlen) (hall.get h hlen)

theorem Counters.recordAll_push (c : Counters) (observed : Array Insertion) (ins : Insertion) :
    c.recordAll (observed.push ins) = (c.recordAll observed).record ins := by
  simp [Counters.recordAll]

/-! ### Passes, layers and steps -/

namespace Enumerator

/-- The visit of one tuple in an operator pass: the candidate of the node, when the kind
takes that many children, handed to the bank and counted. -/
def visit (expected : List Value) (op : Operator) (s : Bank × Counters)
    (args : List Candidate) : Except EvalError (Bank × Counters) :=
  match Candidate.node? op.kind op.ret expected args with
  | none => .ok s
  | some (.error err) => .error err
  | some (.ok c) => .ok ((s.1.insert c).1, s.2.record (s.1.insert c).2)

/-- An operator pass from a bank without winner visits the tuples of the pools taken from
that bank, in order, until a winner is set. -/
theorem passOp_eq (expected : List Value) (policy : Policy) (op : Operator)
    (s : Bank × Counters) (h : s.1.winner.isSome = false) :
    passOp expected policy op s =
      (tuples (policy.pools op s.1)).foldlM
        (fun s args => if s.1.winner.isSome then pure s else visit expected op s args) s := by
  unfold passOp
  dsimp only
  rw [foldTuples_eq_foldlM (fun s : Bank × Counters => s.1.winner.isSome) _ _ _ _ h]
  rfl

/-- The visits of tuples, each skipped once a winner is set, do what a batch continued from
the same bank does with the candidates built from those tuples: the tuples whose node takes
no such children build nothing, and every report of the batch is counted. -/
theorem foldlM_visit_eq_insertAllFrom (expected : List Value) (op : Operator) (c : Counters)
    (tuples : List (List Candidate)) (bank : Bank) (observed : Array Insertion) (pulled : Nat) :
    tuples.foldlM (fun s args => if s.1.winner.isSome then pure s else visit expected op s args)
        (bank, c.recordAll observed) =
      match (Bank.insertAllFrom id ⟨bank, observed, pulled, none⟩
          (tuples.filterMap (Candidate.node? op.kind op.ret expected))).failure with
      | some err => .error err
      | none =>
          let batch := Bank.insertAllFrom id ⟨bank, observed, pulled, none⟩
            (tuples.filterMap (Candidate.node? op.kind op.ret expected))
          .ok (batch.bank, c.recordAll batch.observed) := by
  induction tuples generalizing bank observed pulled with
  | nil => rfl
  | cons args rest ih =>
      cases hwin : bank.winner.isSome with
      | true =>
          -- from a frozen bank neither side looks at a tuple again
          obtain ⟨hbank, hobs, hfail⟩ := @Bank.insertAllFrom_of_winner _ _ id
            ⟨bank, observed, pulled, none⟩ hwin ((args :: rest).filterMap
              (Candidate.node? op.kind op.ret expected))
          rw [foldlM_guarded_of_stop (fun s : Bank × Counters => s.1.winner.isSome) _ _ hwin]
          simp only [hfail, hbank, hobs]
      | false =>
          cases hnode : Candidate.node? op.kind op.ret expected args with
          | none =>
              simpa [hnode, visit, hwin, bind, Except.bind] using ih bank observed pulled
          | some built =>
              cases built with
              | error err =>
                  simp [hnode, visit, hwin, Bank.insertAllFrom, bind, Except.bind]
              | ok cand =>
                  have hrest := ih (bank.insert cand).1 (observed.push (bank.insert cand).2)
                    (pulled + 1)
                  rw [Counters.recordAll_push] at hrest
                  simpa [hnode, visit, hwin, Bank.insertAllFrom, bind, Except.bind] using hrest

/-- An operator pass from a bank without winner is the batch of the candidates built, in
order, from the tuples of the pools taken from that bank, the tuples whose node takes no
such children dropped: the pass returns the batch's bank with each of the batch's reports
counted, or the batch's failure. Like every batch, it takes the candidate after the
winner's, but neither inserts nor counts it. -/
theorem passOp_eq_insertAll (expected : List Value) (policy : Policy) (op : Operator)
    (bank : Bank) (counters : Counters) (h : bank.winner.isSome = false) :
    let batch := bank.insertAll
      ((tuples (policy.pools op bank)).filterMap (Candidate.node? op.kind op.ret expected)) id
    passOp expected policy op (bank, counters) =
      match batch.failure with
      | some err => .error err
      | none => .ok (batch.bank, counters.recordAll batch.observed) := by
  have hempty : counters.recordAll #[] = counters := by simp [Counters.recordAll]
  have hpass := foldlM_visit_eq_insertAllFrom expected op counters
    (tuples (policy.pools op bank)) bank #[] 0
  rw [hempty] at hpass
  rw [passOp_eq expected policy op (bank, counters) h]
  exact hpass

/-- One operator's turn in a layer: its pass, unless a winner is set or it takes no
arguments. -/
def turn (expected : List Value) (policy : Policy) (s : Bank × Counters) (op : Operator) :
    Except EvalError (Bank × Counters) :=
  if s.1.winner.isSome ∨ op.arity = 0 then pure s else passOp expected policy op s

theorem addLayer_eq (e : Enumerator) :
    e.addLayer = (do
      let s ← e.grammar.ops.foldlM (turn e.expected e.policy) (e.bank, e.counters)
      pure { e with bank := s.1, counters := s.2 }) := by
  cases e
  rfl

theorem step_of_searching {e : Enumerator} (h : e.phase = .searching) :
    e.step = (do
      let e' ← e.addLayer
      let e'' := { e' with counters := { e'.counters with
        depth := e'.counters.depth + 1, layers := e'.counters.layers + 1 } }
      pure (e'', e''.phase)) := by
  simp [step, h]

theorem step_of_not_searching {e : Enumerator} (h : e.phase ≠ .searching) :
    e.step = .ok (e, e.phase) := by
  simp [step, h]

/-- `e'` is what steps of the search make of `e`. -/
inductive Reaches : Enumerator → Enumerator → Prop where
  | refl (e : Enumerator) : Reaches e e
  | step {e e' e'' : Enumerator} {phase : Phase} (prior : Reaches e e')
      (last : e'.step = .ok (e'', phase)) : Reaches e e''

/-- The states a layer built from `e` goes through, one operator's turn at a time. -/
inductive Passes (e : Enumerator) : Bank × Counters → Bank × Counters → Prop where
  | refl (s : Bank × Counters) : Passes e s s
  | turn {s s' s'' : Bank × Counters} {op : Operator} (prior : Passes e s s')
      (mem : op ∈ e.grammar.ops) (last : turn e.expected e.policy s' op = .ok s'') :
      Passes e s s''

section Preservation

variable {P : Bank → Prop}

/-- A layer returns, keeping a property of the bank, when every turn of its operators
does. The grammar, the examples, the policy and the depth bound stay as they are. -/
theorem addLayer_preserves {e : Enumerator}
    (hturn : ∀ s, P s.1 → ∀ op ∈ e.grammar.ops,
      ∃ s', turn e.expected e.policy s op = .ok s' ∧ P s'.1)
    (h : P e.bank) :
    ∃ e', e.addLayer = .ok e' ∧ P e'.bank ∧ e'.grammar = e.grammar ∧
      e'.examples = e.examples ∧ e'.policy = e.policy ∧ e'.maxDepth = e.maxDepth := by
  obtain ⟨s, hs, hPs⟩ := foldlM_preserves (P := fun s : Bank × Counters => P s.1) _ _ hturn
    (show P (e.bank, e.counters).1 from h)
  rw [addLayer_eq, hs]
  exact ⟨_, rfl, hPs, rfl, rfl, rfl, rfl⟩

theorem step_preserves {e : Enumerator}
    (hturn : ∀ s, P s.1 → ∀ op ∈ e.grammar.ops,
      ∃ s', turn e.expected e.policy s op = .ok s' ∧ P s'.1)
    (h : P e.bank) :
    ∃ e' phase, e.step = .ok (e', phase) ∧ P e'.bank ∧ e'.grammar = e.grammar ∧
      e'.examples = e.examples ∧ e'.policy = e.policy ∧ e'.maxDepth = e.maxDepth := by
  by_cases hphase : e.phase = .searching
  · obtain ⟨e', he', hP, hg, hx, hp, hm⟩ := addLayer_preserves hturn h
    rw [step_of_searching hphase, he']
    exact ⟨_, _, rfl, hP, hg, hx, hp, hm⟩
  · exact ⟨e, e.phase, step_of_not_searching hphase, h, rfl, rfl, rfl, rfl⟩

end Preservation

/-- Runs of steps keep what one step keeps, and return when every step does. -/
theorem stepWhile_preserves {I : Enumerator → Prop}
    (hstep : ∀ e, I e → ∃ e' phase, e.step = .ok (e', phase) ∧ I e') :
    ∀ (n : Nat) (e : Enumerator), I e → ∃ e', stepWhile n e = .ok e' ∧ I e'
  | 0, e, h => ⟨e, rfl, h⟩
  | n + 1, e, h => by
      unfold stepWhile
      split
      · obtain ⟨e', phase, hs, h'⟩ := hstep e h
        rw [hs]
        exact stepWhile_preserves hstep n e' h'
      · exact ⟨e, rfl, h⟩

theorem run_ok_of_preserves {I : Enumerator → Prop}
    (hstep : ∀ e, I e → ∃ e' phase, e.step = .ok (e', phase) ∧ I e') {e : Enumerator}
    (h : I e) : ∃ r, e.run = .ok r := by
  obtain ⟨e', he', -⟩ := stepWhile_preserves hstep e.maxDepth e h
  exact ⟨(e'.bank.winner, e'.stats), by simp [run, he', bind, Except.bind, pure, Except.pure]⟩

/-- A started search holds the grammar, examples, policy and bound it was given, and the
bank that inserting the terminals made of an empty one. -/
theorem start_ok {grammar : ResolvedGrammar} {terminals : Terminals} {examples : List Example}
    {maxDepth : Nat} {policy : Policy} {tieBreak : TieBreak} {e : Enumerator}
    (h : start grammar terminals examples maxDepth policy tieBreak = .ok e) :
    e.grammar = grammar ∧ e.examples = examples ∧ e.policy = policy ∧ e.maxDepth = maxDepth ∧
      e.bank = ((Bank.empty tieBreak).insertAll (seeds terminals)
        fun (expr, ty) => Candidate.ofExpr expr ty examples).bank := by
  unfold start at h
  dsimp only at h
  split at h
  · cases h
  · cases h
    exact ⟨rfl, rfl, rfl, rfl, rfl⟩

/-! ### What returned runs keep -/

section Returned

variable {expected : List Value} {policy : Policy}

theorem visit_reaches {op : Operator} {s s' : Bank × Counters} {args : List Candidate}
    (h : visit expected op s args = .ok s') : s.1.Reaches s'.1 := by
  unfold visit at h
  split at h
  · cases h
    exact .refl _
  · cases h
  · cases h
    exact (Bank.Reaches.refl _).insert _

theorem visit_all {P : Candidate → Prop} {op : Operator} {s s' : Bank × Counters}
    {args : List Candidate}
    (hbuilt : ∀ c, Candidate.node? op.kind op.ret expected args = some (.ok c) → P c)
    (hs : s.1.All P) (h : visit expected op s args = .ok s') : s'.1.All P := by
  unfold visit at h
  split at h
  · cases h
    exact hs
  · cases h
  · rename_i c hnode
    cases h
    exact hs.insert (hbuilt c hnode)

/-- What every visit of a tuple of the pools keeps, a returned turn keeps. The pools are
those of the bank the turn starts from. -/
theorem turn_invariant {I : Bank × Counters → Prop} {s s' : Bank × Counters} {op : Operator}
    (hvisit : ∀ t t', I t → ∀ args ∈ tuples (policy.pools op s.1),
      visit expected op t args = .ok t' → I t')
    (hs : I s) (h : turn expected policy s op = .ok s') : I s' := by
  unfold turn at h
  split at h
  · cases h
    exact hs
  · rename_i hskip
    have hw : s.1.winner.isSome = false := by simpa using fun h => hskip (.inl h)
    rw [passOp_eq _ _ _ _ hw] at h
    refine foldlM_invariant ?_ hs h
    intro t t' ht args hargs hstep
    split at hstep
    · cases hstep
      exact ht
    · exact hvisit t t' ht args hargs hstep

theorem turn_reaches {s s' : Bank × Counters} {op : Operator}
    (h : turn expected policy s op = .ok s') : s.1.Reaches s'.1 :=
  turn_invariant (I := fun t => s.1.Reaches t.1)
    (fun _ _ ht _ _ hvisit => ht.trans (visit_reaches hvisit)) (.refl _) h

/-- A turn keeps a property of every kept candidate when every candidate built from a
tuple of the pools has it. -/
theorem turn_all {P : Candidate → Prop} {s s' : Bank × Counters} {op : Operator}
    (hbuilt : ∀ args ∈ tuples (policy.pools op s.1), ∀ c,
      Candidate.node? op.kind op.ret expected args = some (.ok c) → P c)
    (hs : s.1.All P) (h : turn expected policy s op = .ok s') : s'.1.All P :=
  turn_invariant (I := fun t => t.1.All P)
    (fun _ _ ht args hargs hvisit => visit_all (hbuilt args hargs) ht hvisit) hs h

end Returned

/-- What every returned turn of the grammar's operators keeps, a returned layer keeps. -/
theorem addLayer_invariant {I : Bank × Counters → Prop} {e e' : Enumerator}
    (hturn : ∀ s s', I s → ∀ op ∈ e.grammar.ops, turn e.expected e.policy s op = .ok s' → I s')
    (hs : I (e.bank, e.counters)) (h : e.addLayer = .ok e') : I (e'.bank, e'.counters) := by
  rw [addLayer_eq] at h
  obtain ⟨s, hfold, h⟩ := Except.bind_eq_ok.mp h
  cases h
  exact foldlM_invariant hturn hs hfold

/-- A layer keeps the grammar, the examples, the policy, the depth bound and the depth; the
counters it changes count candidates only. -/
theorem addLayer_fields {e e' : Enumerator} (h : e.addLayer = .ok e') :
    e'.grammar = e.grammar ∧ e'.examples = e.examples ∧ e'.policy = e.policy ∧
      e'.maxDepth = e.maxDepth ∧ e'.counters.depth = e.counters.depth := by
  have hdepth := addLayer_invariant (I := fun s => s.2.depth = e.counters.depth)
    (fun s s' hs _ _ hturn => by
      refine turn_invariant (I := fun t => t.2.depth = e.counters.depth) ?_ hs hturn
      intro t t' ht _ _ hvisit
      unfold visit at hvisit
      split at hvisit <;> cases hvisit <;> exact ht)
    rfl h
  rw [addLayer_eq] at h
  obtain ⟨s, -, h⟩ := Except.bind_eq_ok.mp h
  cases h
  exact ⟨rfl, rfl, rfl, rfl, hdepth⟩

/-- A step either finds the search over and changes nothing, or builds a layer and raises
the depth and the layer count by one. -/
theorem step_cases {e e' : Enumerator} {phase : Phase} (h : e.step = .ok (e', phase)) :
    (e.phase ≠ .searching ∧ e' = e) ∨
    (e.phase = .searching ∧ ∃ e₁, e.addLayer = .ok e₁ ∧
      e' = { e₁ with counters := { e₁.counters with
        depth := e₁.counters.depth + 1, layers := e₁.counters.layers + 1 } }) := by
  by_cases hphase : e.phase = .searching
  · rw [step_of_searching hphase] at h
    obtain ⟨e₁, h₁, h⟩ := Except.bind_eq_ok.mp h
    cases h
    exact .inr ⟨hphase, e₁, h₁, rfl⟩
  · rw [step_of_not_searching hphase] at h
    cases h
    exact .inl ⟨hphase, rfl⟩

theorem step_fields {e e' : Enumerator} {phase : Phase} (h : e.step = .ok (e', phase)) :
    e'.grammar = e.grammar ∧ e'.examples = e.examples ∧ e'.policy = e.policy ∧
      e'.maxDepth = e.maxDepth := by
  rcases step_cases h with ⟨-, rfl⟩ | ⟨-, e₁, h₁, rfl⟩
  · exact ⟨rfl, rfl, rfl, rfl⟩
  · obtain ⟨hg, hx, hp, hm, -⟩ := addLayer_fields h₁
    exact ⟨hg, hx, hp, hm⟩

theorem Reaches.fields {e e' : Enumerator} (run : e.Reaches e') :
    e'.grammar = e.grammar ∧ e'.examples = e.examples ∧ e'.policy = e.policy ∧
      e'.maxDepth = e.maxDepth := by
  induction run with
  | refl => exact ⟨rfl, rfl, rfl, rfl⟩
  | step _ last ih =>
      obtain ⟨hg, hx, hp, hm⟩ := step_fields last
      exact ⟨hg.trans ih.1, hx.trans ih.2.1, hp.trans ih.2.2.1, hm.trans ih.2.2.2⟩

/-- A step followed by steps is a run of steps. -/
theorem Reaches.head {e e₁ e' : Enumerator} {phase : Phase} (first : e.step = .ok (e₁, phase))
    (rest : e₁.Reaches e') : e.Reaches e' := by
  induction rest with
  | refl => exact .step (.refl e) first
  | step _ last ih => exact .step ih last

/-- What a bounded run of steps returns, the steps reach. -/
theorem stepWhile_reaches : ∀ {n : Nat} {e e' : Enumerator}, stepWhile n e = .ok e' → e.Reaches e'
  | 0, e, e', h => by
      unfold stepWhile at h
      cases h
      exact .refl e
  | n + 1, e, e', h => by
      unfold stepWhile at h
      split at h
      · obtain ⟨⟨e₁, phase⟩, hstep, h⟩ := Except.bind_eq_ok.mp h
        exact .head hstep (stepWhile_reaches h)
      · cases h
        exact .refl e

end Enumerator

end ExprSynth
