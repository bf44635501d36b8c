import ExprSynth.Proofs.BankInvariant

/-! Batches of insertions. Handing a sequence of built candidates to a bank without a winner
inserts them one after the other, in order, up to and including the first that succeeds and
stopping before the first item that could not be built. What each insertion returned is
reported in order, never `frozen`, and the batch fails with the error of an item exactly when
that item is reached before a winner. A bank with a winner inserts nothing from a batch.

A batch takes each item before it checks for a winner, so it is lazy only up to one item: it
takes exactly one item past those it inserts whenever one is left, and none after that. -/
namespace ExprSynth

namespace Bank

/-- The candidates a batch inserts from a sequence of built candidates, in order: up to and
including the first that succeeds, and none from the first item that failed to build on. -/
def batchPrefix {ε : Type} : List (Except ε Candidate) → List Candidate
  | [] => []
  | .error _ :: _ => []
  | .ok c :: rest => c :: if c.success then [] else batchPrefix rest

/-- What each insertion of a run of insertions returns, in order. -/
def outcomes (b : Bank) : List Candidate → List Insertion
  | [] => []
  | c :: cs => (b.insert c).2 :: outcomes (b.insert c).1 cs

theorem winner_insert_of_unsuccessful {b : Bank} (hb : b.winner = none) {c : Candidate}
    (hc : c.success = false) : (b.insert c).1.winner = none := by
  simp [winner_insert_eq, hb, hc]

theorem insert_ne_frozen {b : Bank} (hb : b.winner = none) (c : Candidate) :
    (b.insert c).2 ≠ .frozen := by
  unfold insert
  simp only [hb, Option.isSome_none, Bool.false_eq_true, ↓reduceIte]
  split
  · simp
  split
  · simp
  split
  · simp
  split <;> simp

/-- Once a winner is set, a batch ends at its first item, whatever it is: the bank, what was
reported and the error stay as they were. -/
theorem insertAllFrom_of_winner {α ε : Type} (build : α → Except ε Candidate) {acc : Batch ε}
    (h : acc.bank.winner.isSome) (items : List α) :
    (insertAllFrom build acc items).bank = acc.bank ∧
      (insertAllFrom build acc items).observed = acc.observed ∧
      (insertAllFrom build acc items).failure = acc.failure := by
  obtain ⟨bank, observed, pulled, failure⟩ := acc
  cases items with
  | nil => exact ⟨rfl, rfl, rfl⟩
  | cons item rest => simp only at h; simp [insertAllFrom, h]

/-- The loop of a batch on a bank without a winner, from any point of it: the candidates of
`batchPrefix` are inserted one after the other, each outcome is appended to what was
reported, and the batch fails exactly on an item that failed to build right after them,
none of them having won. -/
theorem insertAllFrom_sequential {α ε : Type} (build : α → Except ε Candidate) (items : List α) :
    ∀ {bank : Bank} (observed : Array Insertion) (pulled : Nat), bank.winner = none →
      let batch := insertAllFrom build ⟨bank, observed, pulled, none⟩ items
      let cs := batchPrefix (items.map build)
      batch.bank = cs.foldl (fun b c => (b.insert c).1) bank ∧
      batch.observed.toList = observed.toList ++ bank.outcomes cs ∧
      ∀ e, batch.failure = some e ↔
        (∀ c ∈ cs, c.success = false) ∧ ∃ post, items.map build = cs.map .ok ++ .error e :: post := by
  induction items with
  | nil =>
      intro bank observed pulled _
      simp [insertAllFrom, batchPrefix, outcomes]
  | cons item rest ih =>
      intro bank observed pulled hb
      cases hbuild : build item with
      | error err =>
          simp [insertAllFrom, hb, hbuild, batchPrefix, outcomes]
      | ok c =>
          cases hc : c.success with
          | true =>
              -- the winner freezes the bank: the rest of the items is not looked at
              have hwin : ((bank.insert c).1).winner.isSome := by simp [winner_insert_eq, hb, hc]
              obtain ⟨hbank, hobs, hfail⟩ := @insertAllFrom_of_winner _ _ build
                ⟨(bank.insert c).1, observed.push (bank.insert c).2, pulled + 1, none⟩ hwin rest
              simp only [insertAllFrom, hb, hbuild, Option.isSome_none, Bool.false_eq_true,
                ↓reduceIte, List.map_cons, batchPrefix, hc]
              refine ⟨hbank, ?_, fun e => ?_⟩
              · simp [hobs, outcomes]
              · simp [hfail, hc]
          | false =>
              obtain ⟨hbank, hobs, hfail⟩ := ih (observed.push (bank.insert c).2) (pulled + 1)
                (winner_insert_of_unsuccessful hb hc)
              simp only [insertAllFrom, hb, hbuild, Option.isSome_none, Bool.false_eq_true,
                ↓reduceIte, List.map_cons, batchPrefix, hc]
              refine ⟨hbank, ?_, fun e => ?_⟩
              · simp [hobs, outcomes]
              · simp [hfail e, hc]

/-- No insertion of a batch into a bank without a winner meets a frozen bank: every
candidate before the last of `batchPrefix` fails to succeed. -/
theorem frozen_not_mem_outcomes {ε : Type} (xs : List (Except ε Candidate)) :
    ∀ {b : Bank}, b.winner = none → .frozen ∉ b.outcomes (batchPrefix xs) := by
  induction xs with
  | nil => simp [batchPrefix, outcomes]
  | cons x rest ih =>
      intro b hb
      cases x with
      | error e => simp [batchPrefix, outcomes]
      | ok c =>
          cases hc : c.success with
          | true => simpa [batchPrefix, outcomes, hc] using (insert_ne_frozen hb c).symm
          | false =>
              simp only [batchPrefix, hc, Bool.false_eq_true, ↓reduceIte, outcomes,
                List.mem_cons, not_or]
              exact ⟨(insert_ne_frozen hb c).symm, ih (winner_insert_of_unsuccessful hb hc)⟩

/-- A batch is sequential insertion up to the first winner or error. Into a bank without a
winner, the candidates built from the items are inserted in order up to and including the
first that succeeds, stopping before the first item that could not be built; the bank after
is that run of single insertions, what each returned is reported in order and is never
`frozen`, and the batch fails with `e` exactly when an item failing with `e` comes right
after the inserted candidates and none of them won, so it is not inserted and all before it
is kept. Into a bank with a winner nothing is inserted, reported or failed. -/
theorem insertAll_sequential {α ε : Type} (b : Bank) (items : List α)
    (build : α → Except ε Candidate) :
    let batch := b.insertAll items build
    let cs := batchPrefix (items.map build)
    (b.winner = none →
      batch.bank = cs.foldl (fun b c => (b.insert c).1) b ∧
      batch.observed.toList = b.outcomes cs ∧
      .frozen ∉ batch.observed.toList ∧
      ∀ e, batch.failure = some e ↔
        (∀ c ∈ cs, c.success = false) ∧ ∃ post, items.map build = cs.map .ok ++ .error e :: post) ∧
    (b.winner.isSome → batch.bank = b ∧ batch.observed = #[] ∧ batch.failure = none) := by
  intro batch cs
  refine ⟨fun hb => ?_, fun hb => insertAllFrom_of_winner build hb items⟩
  obtain ⟨hbank, hobs, hfail⟩ := insertAllFrom_sequential build items #[] 0 hb
  simp only [List.nil_append] at hobs
  exact ⟨hbank, hobs, hobs ▸ frozen_not_mem_outcomes _ hb, hfail⟩

/-- A batch of `x`, then `2x + 5`, which reproduces both examples, then an item that failed
to build: the first two are inserted and the failure after the winner is never reached. -/
theorem insertAll_sequential_first_winner :
    let x : Candidate := ⟨.var "x" .int, .int, [.int 1, .int 2], false⟩
    let win : Candidate :=
      ⟨.binop .plus (.binop .plus (.var "x" .int) (.var "x" .int)) (.const 5), .int,
        [.int 7, .int 9], true⟩
    let items : List (Except EvalError Candidate) := [.ok x, .ok win, .error (.unbound "y")]
    let b := empty .keepExisting
    let batch := b.insertAll items id
    b.winner = none ∧ batchPrefix (items.map id) = [x, win] ∧
      batch.bank = [x, win].foldl (fun b c => (b.insert c).1) b ∧
      batch.observed.toList = b.outcomes [x, win] ∧
      .frozen ∉ batch.observed.toList ∧
      ∀ e, batch.failure = some e ↔
        (∀ c ∈ [x, win], c.success = false) ∧
          ∃ post, items.map id = [x, win].map .ok ++ .error e :: post := by
  intro x win items b batch
  have hinserted : batchPrefix (items.map id) = [x, win] := rfl
  have h := (insertAll_sequential b items id).1 rfl
  rw [hinserted] at h
  exact ⟨rfl, hinserted, h⟩

/-! ### How many items a batch takes -/

/-- A batch never gives back an item it took. -/
theorem pulled_le_insertAllFrom {α ε : Type} (build : α → Except ε Candidate) (items : List α) :
    ∀ acc : Batch ε, acc.pulled ≤ (insertAllFrom build acc items).pulled := by
  induction items with
  | nil => intro acc; exact Nat.le_refl _
  | cons item rest ih =>
      rintro ⟨bank, observed, pulled, failure⟩
      simp only [insertAllFrom]
      split
      · simp
      · split
        · simp
        · exact Nat.le_of_succ_le (ih ⟨_, _, pulled + 1, none⟩)

/-- A batch with an item left takes it, whether or not it inserts it. -/
theorem pulled_lt_insertAllFrom_cons {α ε : Type} (build : α → Except ε Candidate) (item : α)
    (rest : List α) (acc : Batch ε) :
    acc.pulled < (insertAllFrom build acc (item :: rest)).pulled := by
  obtain ⟨bank, observed, pulled, failure⟩ := acc
  simp only [insertAllFrom]
  split
  · simp
  · split
    · simp
    · exact pulled_le_insertAllFrom build rest ⟨_, _, pulled + 1, none⟩

/-- The loop of a batch, from any point where every item taken so far was inserted: it ends
having taken one item past those it inserted, or every item if fewer are left. -/
theorem pulled_insertAllFrom {α ε : Type} (build : α → Except ε Candidate) (items : List α) :
    ∀ acc : Batch ε, acc.pulled = acc.observed.size →
      (insertAllFrom build acc items).pulled =
        min ((insertAllFrom build acc items).observed.size + 1) (acc.pulled + items.length) := by
  induction items with
  | nil =>
      intro acc hacc
      simp only [insertAllFrom, List.length_nil, Nat.add_zero]
      omega
  | cons item rest ih =>
      rintro ⟨bank, observed, pulled, failure⟩ hacc
      simp only at hacc
      simp only [insertAllFrom]
      -- a frozen bank or a failed build ends the loop on the item just taken
      split
      · simp only [List.length_cons]; omega
      · split
        · simp only [List.length_cons]; omega
        · -- the item was inserted: the next point of the loop again inserted all it took
          rw [ih _ (by simp [hacc])]
          simp only [List.length_cons]; omega

/-- A batch looks at no item past those it takes: cutting the sequence after any number of
items at least as large changes nothing. -/
theorem insertAllFrom_take {α ε : Type} (build : α → Except ε Candidate) (items : List α) :
    ∀ (acc : Batch ε) (n : Nat), (insertAllFrom build acc items).pulled ≤ acc.pulled + n →
      insertAllFrom build acc (items.take n) = insertAllFrom build acc items := by
  induction items with
  | nil => intro acc n _; simp
  | cons item rest ih =>
      intro acc n hn
      cases n with
      | zero =>
          have htaken := pulled_lt_insertAllFrom_cons build item rest acc
          omega
      | succ n =>
          obtain ⟨bank, observed, pulled, failure⟩ := acc
          by_cases hw : bank.winner.isSome
          · simp [insertAllFrom, hw]
          · cases hbuild : build item with
            | error e => simp [insertAllFrom, hw, hbuild]
            | ok c =>
                simp only [List.take_succ_cons, insertAllFrom, hw, hbuild, Bool.false_eq_true,
                  ↓reduceIte] at hn ⊢
                exact ih ⟨_, _, pulled + 1, none⟩ n (by dsimp only; omega)

/-- A batch takes exactly one item past those it inserts whenever one is left, and looks at
no item past those it takes. The item after the winner's is taken before the check that
ends the loop, and so is the first item when the bank already has a winner; an item whose
candidate fails to build is the last one taken. -/
theorem insertAll_pulls_one_past_inserted {α ε : Type} (b : Bank) (items : List α)
    (build : α → Except ε Candidate) :
    let batch := b.insertAll items build
    batch.pulled = min (batch.observed.size + 1) items.length ∧
      b.insertAll (items.take batch.pulled) build = batch := by
  intro batch
  have hcount : batch.pulled = min (batch.observed.size + 1) (0 + items.length) :=
    pulled_insertAllFrom build items ⟨b, #[], 0, none⟩ rfl
  refine ⟨by rw [hcount, Nat.zero_add], ?_⟩
  exact insertAllFrom_take build items _ batch.pulled (Nat.le_add_left _ _)

/-- Two examples bind `x` to 1 and 2 and expect 7 and 9. Of the items `x`, `x + x + 5`, which
reproduces both, and `3`, a batch inserts the first two and still takes the third; a second
batch, on the bank now frozen, takes its one item `1` and inserts nothing. -/
theorem insertAll_pulls_item_after_winner :
    let examples : List Example := [⟨⟨[("x", 1)]⟩, .int 7⟩, ⟨⟨[("x", 2)]⟩, .int 9⟩]
    let build := fun (item : Expr × Ty) => Candidate.ofExpr item.1 item.2 examples
    let x : Expr := .var "x" .int
    let items : List (Expr × Ty) :=
      [(x, .int), (.binop .plus (.binop .plus x x) (.const 5), .int), (.const 3, .int)]
    let batch := (empty .keepExisting).insertAll items build
    batch.observed = #[.retained, .winner] ∧ batch.pulled = 3 ∧
      (batch.bank.insertAll [(.const 1, .int)] build).observed = #[] ∧
      (batch.bank.insertAll [(.const 1, .int)] build).pulled = 1 := by
  cbv

end Bank

end ExprSynth
