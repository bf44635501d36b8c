import Mathlib
import ExprSynth.Bank

/-! The representation invariant of the equivalence bank. The index maps the values of
each retained candidate to its position, no two retained candidates have the same values,
and none of them succeeds. Inserting keeps all three, whatever the tie break, so the
lookup in `Bank.insert` always finds the equivalent candidate in range, and removing it
renumbers every later entry. -/
namespace ExprSynth

theorem eq_of_getElem?_of_nodup {α : Type} {l : List α} (h : l.Nodup) {x : α} {i j : Nat}
    (hi : l[i]? = some x) (hj : l[j]? = some x) : i = j := by
  have hlt : i < l.length := (List.getElem?_eq_some_iff.mp hi).1
  exact (List.getElem?_inj hlt h).mp (hi.trans hj.symm)

namespace Bank

/-- The values of the retained candidates, in bank order: the keys the index must know. -/
def keys (b : Bank) : List (List Value) :=
  b.toList.map (·.outputs)

/-- The representation invariant: the retained values are distinct, the index maps a key
to a position exactly when the candidate there has those values, and no retained
candidate succeeds. -/
structure WellFormed (b : Bank) : Prop where
  nodup : b.keys.Nodup
  index : ∀ (key : List Value) (i : Nat), b.index[key]? = some i ↔ b.keys[i]? = some key
  unsuccessful : ∀ c ∈ b.toList, c.success = false

@[simp] theorem toList_append (b : Bank) (c : Candidate) :
    (b.append c).toList = b.toList ++ [c] := by
  cases b
  simp [append, toList]

@[simp] theorem index_append (b : Bank) (c : Candidate) :
    (b.append c).index = b.index.insert c.outputs b.size := by
  cases b
  rfl

@[simp] theorem winner_append (b : Bank) (c : Candidate) : (b.append c).winner = b.winner := by
  cases b
  rfl

@[simp] theorem tieBreak_append (b : Bank) (c : Candidate) :
    (b.append c).tieBreak = b.tieBreak := by
  cases b
  rfl

@[simp] theorem toList_removeAt (b : Bank) (pos : Nat) :
    (b.removeAt pos).toList = b.toList.eraseIdx pos := by
  cases b
  simp [removeAt, toList]

theorem index_removeAt (b : Bank) (pos : Nat) :
    (b.removeAt pos).index = reindex (b.retained.eraseIdxIfInBounds pos) b.index pos := by
  cases b
  rfl

@[simp] theorem winner_removeAt (b : Bank) (pos : Nat) :
    (b.removeAt pos).winner = b.winner := by
  cases b
  rfl

@[simp] theorem tieBreak_removeAt (b : Bank) (pos : Nat) :
    (b.removeAt pos).tieBreak = b.tieBreak := by
  cases b
  rfl

@[simp] theorem size_eq_length_keys (b : Bank) : b.size = b.keys.length := by
  simp [size, keys, toList]

@[simp] theorem keys_append (b : Bank) (c : Candidate) :
    (b.append c).keys = b.keys ++ [c.outputs] := by
  simp [keys]

@[simp] theorem keys_removeAt (b : Bank) (pos : Nat) :
    (b.removeAt pos).keys = b.keys.eraseIdx pos := by
  simp [keys, List.eraseIdx_eq_take_drop_succ, List.map_take, List.map_drop]

@[simp] theorem keys_setWinner (b : Bank) (c : Candidate) :
    ({ b with winner := some c } : Bank).keys = b.keys := rfl

theorem getElem?_keys (b : Bank) (i : Nat) :
    b.keys[i]? = b.toList[i]?.map (·.outputs) := by
  simp [keys]

/-! ### Reindexing after a removal -/

/-- Reindexing from `pos` leaves alone a key that no candidate from `pos` on has. -/
theorem getElem?_reindex_of_forall_ne {retained : Array Candidate}
    {index : Std.HashMap (List Value) Nat} {pos : Nat} {key : List Value}
    (h : ∀ j, pos ≤ j → (retained.toList.map (·.outputs))[j]? ≠ some key) :
    (reindex retained index pos)[key]? = index[key]? := by
  fun_induction reindex retained index pos with
  | case1 index pos hpos ih =>
      rw [ih (fun j hj => h j (by omega)), Std.HashMap.getElem?_insert]
      have hne : retained[pos].outputs ≠ key := by
        intro heq
        exact h pos (Nat.le_refl _) (by simp [hpos, heq])
      simp [hne]
  | case2 => rfl

/-- Reindexing from `pos` points the key of a candidate from `pos` on at its position,
when no two candidates have the same key. -/
theorem getElem?_reindex_of_getElem? {retained : Array Candidate}
    {index : Std.HashMap (List Value) Nat} {pos j : Nat} {key : List Value}
    (hnodup : (retained.toList.map (·.outputs)).Nodup) (hle : pos ≤ j)
    (hj : (retained.toList.map (·.outputs))[j]? = some key) :
    (reindex retained index pos)[key]? = some j := by
  fun_induction reindex retained index pos with
  | case1 index pos hpos ih =>
      rcases Nat.lt_or_eq_of_le hle with hlt | rfl
      · exact ih hlt
      · have hkey : retained[pos].outputs = key := by simpa [hpos] using hj
        rw [getElem?_reindex_of_forall_ne, Std.HashMap.getElem?_insert]
        · simp [hkey]
        · intro j' hj' hkey'
          have := eq_of_getElem?_of_nodup hnodup hj hkey'
          omega
  | case2 index pos hpos =>
      have hlt : j < retained.size := by
        simpa using (List.getElem?_eq_some_iff.mp hj).1
      omega

/-- Removing the candidate at `pos` leaves the index right on every key but the removed
one, which still points at `pos` until it is inserted again. -/
theorem WellFormed.getElem?_index_removeAt {b : Bank} (hb : b.WellFormed) {pos : Nat}
    {removed key : List Value} (hpos : b.keys[pos]? = some removed) (hne : key ≠ removed)
    (i : Nat) : (b.removeAt pos).index[key]? = some i ↔ (b.keys.eraseIdx pos)[i]? = some key := by
  have hkept :
      (b.retained.eraseIdxIfInBounds pos).toList.map (·.outputs) = b.keys.eraseIdx pos := by
    rw [← keys_removeAt]
    cases b
    rfl
  have hnodup : (b.keys.eraseIdx pos).Nodup := hb.nodup.eraseIdx pos
  rw [Bank.index_removeAt]
  by_cases hlater : ∃ j, pos ≤ j ∧ (b.keys.eraseIdx pos)[j]? = some key
  · -- the key moved down by one, and the reindexing recorded its new position
    obtain ⟨j, hle, hj⟩ := hlater
    rw [getElem?_reindex_of_getElem? (by rwa [hkept]) hle (by rwa [hkept])]
    constructor
    · rintro ⟨⟩
      exact hj
    · intro hi
      rw [eq_of_getElem?_of_nodup hnodup hi hj]
  · -- the key sits before `pos`, or nowhere, and its old entry is still right
    replace hlater : ∀ j, pos ≤ j → (b.keys.eraseIdx pos)[j]? ≠ some key :=
      fun j hle hj => hlater ⟨j, hle, hj⟩
    rw [getElem?_reindex_of_forall_ne (by rwa [hkept]), hb.index key i]
    constructor
    · intro hi
      rcases Nat.lt_trichotomy i pos with hlt | rfl | hgt
      · rwa [List.getElem?_eraseIdx_of_lt hlt]
      · exact absurd (Option.some.inj (hi.symm.trans hpos)) hne
      · have hmoved : (b.keys.eraseIdx pos)[i - 1]? = some key := by
          rw [List.getElem?_eraseIdx_of_ge (by omega), Nat.sub_add_cancel (by omega)]
          exact hi
        exact absurd hmoved (hlater (i - 1) (by omega))
    · intro hi
      by_cases hlt : i < pos
      · rwa [List.getElem?_eraseIdx_of_lt hlt] at hi
      · exact absurd hi (hlater i (by omega))

theorem getElem?_append_singleton {α : Type} {l : List α} {a x : α} {i : Nat} :
    (l ++ [a])[i]? = some x ↔ l[i]? = some x ∨ (i = l.length ∧ a = x) := by
  rw [List.getElem?_append]
  split
  · have : i ≠ l.length := by omega
    simp [this]
  · have hnone : l[i]? = none := List.getElem?_eq_none (by omega)
    rw [hnone, List.getElem?_singleton]
    constructor
    · intro h
      simp only [Option.ite_none_right_eq_some, Option.some.injEq] at h
      exact .inr ⟨by omega, h.2⟩
    · rintro (h | ⟨rfl, rfl⟩)
      · cases h
      · simp

/-- Appending an unsuccessful candidate with new values to a bank whose index is right on
every other key gives a well-formed bank: the insertion sets the new key itself. -/
theorem wellFormed_append {b : Bank} {c : Candidate} (nodup : b.keys.Nodup)
    (index : ∀ key i, key ≠ c.outputs → (b.index[key]? = some i ↔ b.keys[i]? = some key))
    (unsuccessful : ∀ d ∈ b.toList, d.success = false) (hc : c.success = false)
    (hnew : c.outputs ∉ b.keys) : (b.append c).WellFormed where
  nodup := by
    rw [keys_append, List.nodup_append]
    refine ⟨nodup, by simp, ?_⟩
    intro k hk k' hk' heq
    rw [List.mem_singleton.mp hk'] at heq
    exact hnew (heq ▸ hk)
  index key i := by
    rw [index_append, Std.HashMap.getElem?_insert, keys_append, getElem?_append_singleton]
    by_cases hkey : key = c.outputs
    · subst hkey
      have hnot : b.keys[i]? ≠ some c.outputs := fun h => hnew (List.mem_of_getElem? h)
      simp [hnot, eq_comm]
    · have hne : (c.outputs == key) = false := by simpa using Ne.symm hkey
      simp only [hne, Bool.false_eq_true, ↓reduceIte, index key i hkey]
      simp [Ne.symm hkey]
  unsuccessful d hd := by
    rcases (by simpa using hd : d ∈ b.toList ∨ d = c) with hd | rfl
    · exact unsuccessful d hd
    · exact hc

/-- In a well-formed bank the position the index gives for some values holds a retained
candidate with those values. -/
theorem WellFormed.retained_of_index {b : Bank} (hb : b.WellFormed) {key : List Value}
    {pos : Nat} (hpos : b.index[key]? = some pos) :
    ∃ old, b.retained[pos]? = some old ∧ old.outputs = key := by
  have hkey := (hb.index key pos).mp hpos
  rw [getElem?_keys] at hkey
  obtain ⟨old, hold, hout⟩ := Option.map_eq_some_iff.mp hkey
  exact ⟨old, by simpa [toList] using hold, hout⟩

/-- What inserting a candidate does to a well-formed bank. The index lookup always finds
the equivalent candidate in range, so the branch that appends on a stale entry is never
taken. -/
theorem WellFormed.insert_cases {b : Bank} (hb : b.WellFormed) (c : Candidate) :
    (b.winner.isSome ∧ b.insert c = (b, .frozen)) ∨
    (b.winner = none ∧ c.success = true ∧ b.insert c = ({ b with winner := some c }, .winner)) ∨
    (b.winner = none ∧ c.success = false ∧ c.outputs ∉ b.keys ∧
      b.insert c = (b.append c, .retained)) ∨
    (∃ pos old, b.winner = none ∧ c.success = false ∧ b.toList[pos]? = some old ∧
      old.outputs = c.outputs ∧
      (b.tieBreak.choose c old = .existing ∧ b.insert c = (b, .discarded) ∨
        b.tieBreak.choose c old = .new ∧
          b.insert c = ((b.removeAt pos).append c, .replaced))) := by
  cases hw : b.winner with
  | some w => exact .inl ⟨rfl, by simp [insert, hw]⟩
  | none =>
      cases hs : c.success with
      | true => exact .inr (.inl ⟨rfl, rfl, by simp [insert, hw, hs]⟩)
      | false =>
          cases hi : b.index[c.outputs]? with
          | none =>
              refine .inr (.inr (.inl ⟨rfl, rfl, ?_, by simp [insert, hw, hs, hi]⟩))
              intro hmem
              obtain ⟨i, hkey⟩ := List.mem_iff_getElem?.mp hmem
              rw [(hb.index _ i).mpr hkey] at hi
              cases hi
          | some pos =>
              obtain ⟨old, hret, hout⟩ := hb.retained_of_index hi
              have hold : b.toList[pos]? = some old := by simpa [toList] using hret
              refine .inr (.inr (.inr ⟨pos, old, rfl, rfl, hold, hout, ?_⟩))
              cases hc : b.tieBreak.choose c old with
              | existing => exact .inl ⟨rfl, by simp [insert, hw, hs, hi, hret, hc]⟩
              | new => exact .inr ⟨rfl, by simp [insert, hw, hs, hi, hret, hc]⟩

/-- Inserting any candidate keeps the representation invariant, whatever the tie break
decides. -/
theorem WellFormed.insert {b : Bank} (hb : b.WellFormed) (c : Candidate) :
    (b.insert c).1.WellFormed := by
  rcases hb.insert_cases c with ⟨-, h⟩ | ⟨-, -, h⟩ | ⟨-, hs, hnew, h⟩ |
      ⟨pos, old, -, hs, hold, hout, ⟨-, h⟩ | ⟨-, h⟩⟩ <;> rw [h]
  · exact hb
  · exact ⟨hb.nodup, hb.index, hb.unsuccessful⟩
  · exact wellFormed_append hb.nodup (fun key i _ => hb.index key i) hb.unsuccessful hs hnew
  · exact hb
  · have hpos : b.keys[pos]? = some c.outputs := by simp [getElem?_keys, hold, hout]
    show ((b.removeAt pos).append c).WellFormed
    refine wellFormed_append (by simpa using hb.nodup.eraseIdx pos)
      (fun key i hne => by simpa using hb.getElem?_index_removeAt hpos hne i) ?_ hs ?_
    · intro d hd
      exact hb.unsuccessful d ((List.eraseIdx_sublist _ _).subset (by simpa using hd))
    · intro hmem
      rw [keys_removeAt, List.mem_eraseIdx_iff_getElem?] at hmem
      obtain ⟨i, hne, hi⟩ := hmem
      exact hne (eq_of_getElem?_of_nodup hb.nodup hi hpos)

theorem wellFormed_empty (tb : TieBreak) : (empty tb).WellFormed where
  nodup := by simp [keys, toList, empty]
  index key i := by simp [keys, toList, empty]
  unsuccessful := by simp [toList, empty]

/-! ### Runs of insertions -/

/-- The banks a bank can be made into by inserting candidates one after the other. -/
inductive Reaches : Bank → Bank → Prop where
  | refl (b : Bank) : Reaches b b
  | insert {b b' : Bank} (prior : Reaches b b') (c : Candidate) : Reaches b (b'.insert c).1

theorem Reaches.trans {b b' b'' : Bank} (left : b.Reaches b') (right : b'.Reaches b'') :
    b.Reaches b'' := by
  induction right with
  | refl => exact left
  | insert _ c ih => exact ih.insert c

theorem Reaches.wellFormed {b b' : Bank} (run : b.Reaches b') (hb : b.WellFormed) :
    b'.WellFormed := by
  induction run with
  | refl => exact hb
  | insert _ c ih => exact ih.insert c

@[simp] theorem tieBreak_insert (b : Bank) (c : Candidate) :
    (b.insert c).1.tieBreak = b.tieBreak := by
  unfold insert
  split
  · rfl
  split
  · rfl
  split
  · simp
  split
  · simp
  split <;> simp

theorem Reaches.tieBreak_eq {b b' : Bank} (run : b.Reaches b') : b'.tieBreak = b.tieBreak := by
  induction run with
  | refl => rfl
  | insert _ c ih => rw [tieBreak_insert, ih]

theorem insert_of_winner {b : Bank} (h : b.winner.isSome) (c : Candidate) :
    b.insert c = (b, .frozen) := by
  simp [insert, h]

theorem Reaches.eq_of_winner {b b' : Bank} (run : b.Reaches b') (h : b.winner.isSome) :
    b' = b := by
  induction run with
  | refl => rfl
  | insert _ c ih => rw [ih, insert_of_winner h]

/-- Inserting into a well-formed bank loses no retained values: a replaced candidate is
replaced by one with the same values. -/
theorem WellFormed.keys_subset_insert {b : Bank} (hb : b.WellFormed) (c : Candidate) :
    ∀ key ∈ b.keys, key ∈ (b.insert c).1.keys := by
  intro key hkey
  rcases hb.insert_cases c with ⟨-, h⟩ | ⟨-, -, h⟩ | ⟨-, -, -, h⟩ |
      ⟨pos, old, -, -, hold, hout, ⟨-, h⟩ | ⟨-, h⟩⟩ <;> rw [h]
  · exact hkey
  · exact hkey
  · simp [hkey]
  · exact hkey
  · have hpos : b.keys[pos]? = some c.outputs := by simp [getElem?_keys, hold, hout]
    by_cases heq : key = c.outputs
    · simp [heq]
    · obtain ⟨i, hi⟩ := List.mem_iff_getElem?.mp hkey
      have hne : i ≠ pos := by
        rintro rfl
        exact heq (Option.some.inj (hi.symm.trans hpos))
      simp only [keys_append, keys_removeAt, List.mem_append]
      exact .inl (List.mem_eraseIdx_iff_getElem?.mpr ⟨i, hne, hi⟩)

theorem Reaches.keys_subset {b b' : Bank} (run : b.Reaches b') (hb : b.WellFormed) :
    ∀ key ∈ b.keys, key ∈ b'.keys := by
  induction run with
  | refl => exact fun _ h => h
  | insert prior c ih =>
      exact fun key h => (prior.wellFormed hb).keys_subset_insert c key (ih key h)

/-- Under a tie break that always keeps the retained candidate, inserting only ever
appends to the retained sequence. -/
theorem prefix_insert {b : Bank} (h : ∀ n o, b.tieBreak.choose n o = .existing)
    (c : Candidate) : b.toList <+: (b.insert c).1.toList := by
  unfold insert
  split
  · exact List.prefix_refl _
  split
  · exact List.prefix_refl _
  split
  · simp
  split
  · simp
  rename_i old _
  simp only [h c old, List.prefix_refl]

theorem Reaches.prefix {b b' : Bank} (run : b.Reaches b')
    (h : ∀ n o, b.tieBreak.choose n o = .existing) : b.toList <+: b'.toList := by
  induction run with
  | refl => exact List.prefix_refl _
  | insert prior c ih =>
      exact ih.trans (prefix_insert (by rw [prior.tieBreak_eq]; exact h) c)

/-- A batch of insertions is a run of single insertions. -/
theorem reaches_insertAllFrom {α ε : Type} (build : α → Except ε Candidate) (acc : Batch ε)
    (items : List α) : acc.bank.Reaches (insertAllFrom build acc items).bank := by
  induction items generalizing acc with
  | nil => exact .refl _
  | cons item rest ih =>
      obtain ⟨bank, observed, pulled, failure⟩ := acc
      simp only [insertAllFrom]
      split
      · exact .refl _
      split
      · exact .refl _
      · rename_i c _
        exact ((Reaches.refl bank).insert c).trans (ih ⟨(bank.insert c).1, _, _, none⟩)

theorem reaches_insertAll {α ε : Type} (b : Bank) (items : List α)
    (build : α → Except ε Candidate) : b.Reaches (b.insertAll items build).bank :=
  reaches_insertAllFrom build ⟨b, #[], 0, none⟩ items

/-! ### Properties of every kept candidate -/

/-- Every retained candidate and the winner, if any, satisfy `P`. -/
def All (P : Candidate → Prop) (b : Bank) : Prop :=
  (∀ c ∈ b.toList, P c) ∧ ∀ w, b.winner = some w → P w

/-- An insertion keeps retained candidates or adds the inserted one, whatever the index
holds. -/
theorem mem_toList_insert {b : Bank} {c d : Candidate} (h : d ∈ (b.insert c).1.toList) :
    d ∈ b.toList ∨ d = c := by
  unfold insert at h
  split at h
  · exact .inl h
  split at h
  · exact .inl h
  split at h
  · simpa using h
  split at h
  · simpa using h
  split at h
  · exact .inl h
  · rcases (by simpa using h : d ∈ b.toList.eraseIdx _ ∨ d = c) with h | rfl
    · exact .inl ((List.eraseIdx_sublist _ _).subset h)
    · exact .inr rfl

theorem winner_insert (b : Bank) (c : Candidate) :
    (b.insert c).1.winner = b.winner ∨ (b.insert c).1.winner = some c := by
  unfold insert
  split
  · exact .inl rfl
  split
  · exact .inr rfl
  split
  · simp
  split
  · simp
  split <;> simp

/-- The winner after an insertion depends only on the winner before and on the candidate:
the first successful candidate becomes the winner, whatever the tie break. -/
theorem winner_insert_eq (b : Bank) (c : Candidate) :
    (b.insert c).1.winner =
      if b.winner.isSome then b.winner else if c.success then some c else none := by
  unfold insert
  split
  · simp [*]
  split
  · simp [*]
  rename_i hw _
  have hnone : b.winner = none := by simpa using hw
  split
  · simp [hnone]
  split
  · simp [hnone]
  split <;> simp [hnone]

theorem All.insert {P : Candidate → Prop} {b : Bank} (hb : b.All P) {c : Candidate}
    (hc : P c) : (b.insert c).1.All P := by
  constructor
  · intro d hd
    rcases mem_toList_insert hd with hd | rfl
    · exact hb.1 d hd
    · exact hc
  · intro w hw
    rcases winner_insert b c with h | h
    · exact hb.2 w (h ▸ hw)
    · rw [h] at hw
      cases hw
      exact hc

/-- A batch keeps a property of every kept candidate when every candidate it builds has
it. -/
theorem insertAllFrom_all {α ε : Type} {P : Candidate → Prop} (build : α → Except ε Candidate)
    (acc : Batch ε) (items : List α) (hbuild : ∀ x ∈ items, ∀ c, build x = .ok c → P c)
    (h : acc.bank.All P) : (insertAllFrom build acc items).bank.All P := by
  induction items generalizing acc with
  | nil => exact h
  | cons item rest ih =>
      obtain ⟨bank, observed, pulled, failure⟩ := acc
      simp only [insertAllFrom]
      split
      · exact h
      split
      · exact h
      · rename_i c hc
        exact ih _ (fun x hx => hbuild x (by simp [hx])) (h.insert (hbuild item (by simp) c hc))

/-- The representation invariant of every bank that insertions make of an empty one, with
any tie break. The retained values are distinct, no retained candidate succeeds, and the
index maps exactly the retained values, each to its position, so the lookup in `insert`
finds the equivalent candidate in range. A bank with a winner is frozen. Along any later
run of insertions, batches included, no retained values are lost, and a tie break that
keeps the retained candidate only appends. -/
theorem representation_invariant {tb : TieBreak} {b : Bank} (reach : (empty tb).Reaches b) :
    b.keys.Nodup ∧
    (∀ c ∈ b.toList, c.success = false) ∧
    (∀ (key : List Value) (i : Nat), b.index[key]? = some i ↔ b.keys[i]? = some key) ∧
    (∀ (c : Candidate) (pos : Nat), b.index[c.outputs]? = some pos →
      ∃ old, b.retained[pos]? = some old ∧ old.outputs = c.outputs) ∧
    (b.winner.isSome → ∀ c, b.insert c = (b, .frozen)) ∧
    (∀ {α ε : Type} (items : List α) (build : α → Except ε Candidate),
      b.Reaches (b.insertAll items build).bank) ∧
    ∀ b', b.Reaches b' →
      (b.winner.isSome → b' = b) ∧ (∀ key ∈ b.keys, key ∈ b'.keys) ∧
      ((∀ n o, tb.choose n o = .existing) → b.toList <+: b'.toList) := by
  have hb := reach.wellFormed (wellFormed_empty tb)
  have htb : b.tieBreak = tb := reach.tieBreak_eq
  refine ⟨hb.nodup, hb.unsuccessful, hb.index, fun c _ hpos => hb.retained_of_index hpos,
    insert_of_winner, fun items build => reaches_insertAll b items build, ?_⟩
  intro b' run
  refine ⟨run.eq_of_winner, run.keys_subset hb, fun h => run.prefix ?_⟩
  rw [htb]
  exact h

/-- The invariant after a replacement under the tie break that keeps the new candidate:
`x` and `2` are retained, then `x + 0`, with the values of `x`, replaces `x` and moves to
the end. -/
theorem representation_invariant_keepNew :
    let x : Candidate := ⟨.var "x" .int, .int, [.int 1, .int 2], false⟩
    let two : Candidate := ⟨.const 2, .int, [.int 2, .int 2], false⟩
    let xPlusZero : Candidate := ⟨.binop .plus (.var "x" .int) (.const 0), .int, [.int 1, .int 2], false⟩
    let b := ((((empty .keepNew).insert x).1.insert two).1.insert xPlusZero).1
    (empty .keepNew).Reaches b ∧
    b.keys.Nodup ∧
    (∀ c ∈ b.toList, c.success = false) ∧
    (∀ (key : List Value) (i : Nat), b.index[key]? = some i ↔ b.keys[i]? = some key) ∧
    (∀ (c : Candidate) (pos : Nat), b.index[c.outputs]? = some pos →
      ∃ old, b.retained[pos]? = some old ∧ old.outputs = c.outputs) ∧
    (b.winner.isSome → ∀ c, b.insert c = (b, .frozen)) ∧
    (∀ {α ε : Type} (items : List α) (build : α → Except ε Candidate),
      b.Reaches (b.insertAll items build).bank) ∧
    ∀ b', b.Reaches b' →
      (b.winner.isSome → b' = b) ∧ (∀ key ∈ b.keys, key ∈ b'.keys) ∧
      ((∀ n o, TieBreak.keepNew.choose n o = .existing) → b.toList <+: b'.toList) :=
  let reach := (((Reaches.refl _).insert _).insert _).insert _
  ⟨reach, representation_invariant reach⟩

end Bank

end ExprSynth
