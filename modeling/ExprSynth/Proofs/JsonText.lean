import Mathlib
import ExprSynth.Json.Format

/-! Reading back what the JSON printer writes. Each reading lemma is a streaming round
trip: given the printed text of a value followed by any rest that ends it, the reader
returns the value and leaves exactly that rest. Places in the text are not followed: the
lemmas hold from any place and say nothing of the place a reader stops at. By induction on
plain values, every one nested below the reading limit comes back, so the indented printer
and the reader make an exact format. -/

namespace ExprSynth.Json

open Cursor

/-- The rest of a text after a value ends it: nothing, a blank, a comma or a closing
bracket. -/
def Ends (rest : List Char) : Prop :=
  ∀ ch ∈ rest.head?, isBlank ch = true ∨ ch = ',' ∨ ch = ']' ∨ ch = '\x7d'

/-- `read` reads `text` back as `a`: from any place, followed by any rest that ends it,
it returns `a` and leaves the rest. -/
def Reads {ε α : Type} (read : Cursor → Except ε (α × Cursor)) (text : List Char) (a : α) :
    Prop :=
  ∀ rest p, Ends rest → ∃ q, read ⟨text ++ rest, p⟩ = .ok (a, ⟨rest, q⟩)

/-! ### Blanks -/

theorem skipBlankFrom_append {bs : List Char} (hbs : ∀ ch ∈ bs, isBlank ch = true)
    {rest : List Char} (hrest : ∀ ch ∈ rest.head?, isBlank ch = false) (p : Pos) :
    ∃ q, skipBlankFrom (bs ++ rest) p = ⟨rest, q⟩ := by
  induction bs generalizing p with
  | nil =>
      cases rest with
      | nil => exact ⟨p, rfl⟩
      | cons ch rest => exact ⟨p, by simp [skipBlankFrom, hrest ch rfl]⟩
  | cons b bs ih =>
      obtain ⟨q, hq⟩ := ih (fun ch h => hbs ch (List.mem_cons_of_mem b h)) (p.advance b)
      exact ⟨q, by simp [skipBlankFrom, hbs b List.mem_cons_self, hq]⟩

theorem skipBlank_append {bs : List Char} (hbs : ∀ ch ∈ bs, isBlank ch = true)
    {rest : List Char} (hrest : ∀ ch ∈ rest.head?, isBlank ch = false) (p : Pos) :
    ∃ q, skipBlank ⟨bs ++ rest, p⟩ = ⟨rest, q⟩ :=
  skipBlankFrom_append hbs hrest p

theorem skipBlank_skipBlankFrom : ∀ (text : List Char) (p : Pos),
    skipBlank (skipBlankFrom text p) = skipBlankFrom text p
  | [], _ => rfl
  | ch :: text, p => by
      by_cases h : isBlank ch = true
      · simp only [skipBlankFrom, h, if_true]
        exact skipBlank_skipBlankFrom text _
      · simp only [skipBlankFrom, h, if_false, Bool.false_eq_true]
        simp [skipBlank, skipBlankFrom, h]

@[simp] theorem skipBlank_skipBlank (c : Cursor) : c.skipBlank.skipBlank = c.skipBlank :=
  skipBlank_skipBlankFrom c.rest c.pos

/-- A text that starts with a character other than a blank needs no skipping. -/
theorem skipBlank_of_head {c : Char} (h : isBlank c = false) (rest : List Char) (p : Pos) :
    skipBlank ⟨c :: rest, p⟩ = ⟨c :: rest, p⟩ := by
  simp [skipBlank, skipBlankFrom, h]

theorem bump_cons (ch : Char) (rest : List Char) (p : Pos) :
    Cursor.bump ⟨ch :: rest, p⟩ = ⟨rest, p.advance ch⟩ := rfl

/-- A text starts a value where a list or map reader looks for one: not with a blank and
not with a closing bracket. -/
def Opens (t : List Char) : Prop :=
  ∃ ch rest, t = ch :: rest ∧ isBlank ch = false ∧ ch ≠ ']' ∧ ch ≠ '\x7d'

/-- A reader that starts by passing blanks reads a value after a blank as it reads the
value. -/
theorem Reads.blank {ε α : Type} {read : Cursor → Except ε (α × Cursor)}
    (hread : ∀ c, read c = read c.skipBlank) {t : List Char} {a : α} (h : Reads read t a)
    (ht : Opens t) : Reads read (' ' :: t) a := by
  obtain ⟨ch, t', rfl, hch, -⟩ := ht
  intro rest p hrest
  obtain ⟨q, hq⟩ := h rest (p.advance ' ') hrest
  refine ⟨q, ?_⟩
  rw [hread, ← hq, hread ⟨ch :: t' ++ rest, p.advance ' '⟩]
  simp [skipBlank, skipBlankFrom, hch, show isBlank ' ' = true from rfl]

/-! ### Strings -/

theorem hexDigit?_digitChar : ∀ v < 16, hexDigit? (Nat.digitChar v) = some v := by
  decide

/-- The four digits `hex4` writes read back as the number. -/
theorem hex4?_hex4 {n : Nat} (hn : n < 0x10000) :
    ∃ a b c d, (hex4 n).toList = [a, b, c, d] ∧ hex4? a b c d = some n := by
  have hdigit : ∀ k, hexDigit? ((Nat.toDigits 16 (n / Nat.pow 16 k % 16)).headD '0') =
      some (n / Nat.pow 16 k % 16) := by
    intro k
    rw [Nat.toDigits_of_lt_base (Nat.mod_lt _ (by decide))]
    exact hexDigit?_digitChar _ (Nat.mod_lt _ (by decide))
  refine ⟨(Nat.toDigits 16 (n / Nat.pow 16 3 % 16)).headD '0',
    (Nat.toDigits 16 (n / Nat.pow 16 2 % 16)).headD '0',
    (Nat.toDigits 16 (n / Nat.pow 16 1 % 16)).headD '0',
    (Nat.toDigits 16 (n / Nat.pow 16 0 % 16)).headD '0',
    String.toList_ofList, ?_⟩
  simp only [hex4?, hdigit 3, hdigit 2, hdigit 1, hdigit 0]
  simp only [Option.some.injEq, Nat.pow_eq, Nat.reducePow]
  omega

/-- Each character comes back from its escape, whatever follows it. -/
theorem readStringFrom_escapeChar (ch : Char) (more : List Char) (p : Pos) (acc : List Char) :
    ∃ q, readStringFrom ((escapeChar ch).toList ++ more) p acc =
      readStringFrom more q (ch :: acc) := by
  unfold escapeChar
  split
  · exact ⟨_, rfl⟩
  · exact ⟨_, rfl⟩
  · exact ⟨_, rfl⟩
  · exact ⟨_, rfl⟩
  · exact ⟨_, rfl⟩
  · exact ⟨_, rfl⟩
  · exact ⟨_, rfl⟩
  · rename_i h₁ h₂ h₃ h₄ h₅ h₆ h₇
    split
    · -- a control character without a letter of its own is written as four hex digits
      rename_i hctrl
      obtain ⟨a, b, c, d, hdigits, hhex⟩ := hex4?_hex4 (n := ch.toNat) (by omega)
      have hq : ¬(0xDC00 ≤ ch.toNat ∧ ch.toNat ≤ 0xDFFF) := by omega
      refine ⟨((p.advance '\\').advance 'u').skip4, ?_⟩
      simp only [String.toList_append, hdigits]
      rw [show ("\\u".toList ++ [a, b, c, d]) ++ more = '\\' :: 'u' :: a :: b :: c :: d :: more
        from rfl, readStringFrom.eq_3]
      simp only [hhex, hq, if_false,
        show ch.toNat < 0xD800 ∨ 0xDBFF < ch.toNat from .inl (by omega),
        if_true, Char.ofNat_toNat]
    · rename_i hctrl
      exact ⟨_, by
        rw [String.toList_singleton, List.singleton_append,
          readStringFrom.eq_7 _ _ _ _ h₁ (fun _ _ _ _ _ h => absurd h h₂) (fun _ h => absurd h h₂)
            (fun h => absurd h h₂) (fun _ _ h => absurd h h₂), if_neg hctrl]⟩

theorem toList_escape (s : String) :
    (escape s).toList = '"' :: (s.toList.flatMap fun ch => (escapeChar ch).toList) ++ ['"'] := by
  simp [escape, String.toList_append, String.toList_join, List.flatMap_map]

/-- The escaped characters of a string, then its closing quote, read back as the string. -/
theorem readStringFrom_escaped (s rest : List Char) (p : Pos) (acc : List Char) :
    ∃ q, readStringFrom ((s.flatMap fun ch => (escapeChar ch).toList) ++ '"' :: rest) p acc =
      .ok (String.ofList (acc.reverse ++ s), ⟨rest, q⟩) := by
  induction s generalizing p acc with
  | nil => exact ⟨p.advance '"', by simp [readStringFrom]⟩
  | cons ch s ih =>
      obtain ⟨q, hq⟩ := readStringFrom_escapeChar ch
        ((s.flatMap fun ch => (escapeChar ch).toList) ++ '"' :: rest) p acc
      obtain ⟨q', hq'⟩ := ih q (ch :: acc)
      refine ⟨q', ?_⟩
      rw [List.flatMap_cons, List.append_assoc, hq, hq']
      simp

/-- A string literal read from its opening quote on. -/
theorem bump_readString_escape (s : String) (rest : List Char) (p : Pos) :
    ∃ q, (Cursor.bump ⟨(escape s).toList ++ rest, p⟩).readString = .ok (s, ⟨rest, q⟩) := by
  obtain ⟨q, hq⟩ := readStringFrom_escaped s.toList rest (p.advance '"') []
  refine ⟨q, ?_⟩
  simpa [toList_escape, bump, Cursor.readString] using hq

/-! ### Numbers -/

theorem digitChar_facts : ∀ v < 10, isDigit (Nat.digitChar v) = true ∧
    digitValue (Nat.digitChar v) = v ∧ (Nat.digitChar v = '0' ↔ v = 0) := by
  decide

/-- A character that ends a value is neither a digit nor the start of a fraction or an
exponent. -/
theorem not_number_of_ends {ch : Char} {rest : List Char} (h : Ends (ch :: rest)) :
    isDigit ch = false ∧ ch ≠ '.' ∧ ch ≠ 'e' ∧ ch ≠ 'E' := by
  rcases h ch rfl with h | rfl | rfl | rfl
  · simp only [isBlank, Bool.or_eq_true, decide_eq_true_eq] at h
    rcases h with ((rfl | rfl) | rfl) | rfl <;> decide
  all_goals decide

theorem maxU64_eq : maxU64 = 2 ^ 64 - 1 := rfl

/-- After the digits of a positive `m`, the number reader holds `m` as its significand. -/
theorem readNumber_toDigits_pos (positive : Bool) {m : Nat} (hm0 : 0 < m) (hm : m ≤ maxU64)
    (rest : List Char) (p : Pos) :
    ∃ q, Cursor.readNumber positive ⟨Nat.toDigits 10 m ++ rest, p⟩ =
      readIntegerDigits positive rest q m := by
  induction m using Nat.strongRecOn generalizing rest p with
  | ind m ih =>
    by_cases hsmall : m < 10
    · -- a single digit other than zero
      obtain ⟨hdig, hval, hzero⟩ := digitChar_facts m hsmall
      have hne : Nat.digitChar m ≠ '0' := fun h => by have := hzero.mp h; omega
      refine ⟨p.advance (Nat.digitChar m), ?_⟩
      rw [Nat.toDigits_of_lt_base hsmall, List.singleton_append]
      unfold Cursor.readNumber
      split
      · rename_i h
        cases h
      · rename_i h
        exact absurd (List.cons.inj h).1 hne
      · rename_i ch tail _ _ h
        obtain ⟨rfl, rfl⟩ := List.cons.inj h
        simp [hdig, hval]
    · -- the digits of `m / 10`, then its last digit
      have hlast := digitChar_facts (m % 10) (Nat.mod_lt _ (by decide))
      have hsplit : Nat.toDigits 10 m = Nat.toDigits 10 (m / 10) ++ [Nat.digitChar (m % 10)] := by
        rw [← Nat.toDigits_of_lt_base (Nat.mod_lt _ (by decide)),
          Nat.toDigits_append_toDigits (by decide) (by omega) (Nat.mod_lt _ (by decide))]
        congr 1
        omega
      obtain ⟨q, hq⟩ := ih (m / 10) (by omega) (by omega) (by rw [maxU64_eq] at hm ⊢; omega)
        (Nat.digitChar (m % 10) :: rest) p
      refine ⟨q.advance (Nat.digitChar (m % 10)), ?_⟩
      rw [hsplit, List.append_assoc, List.singleton_append, hq]
      have hnext : m / 10 * 10 + m % 10 = m := by omega
      simp [readIntegerDigits, hlast.1, hlast.2.1, hnext, Nat.not_lt.mpr hm]

/-- The digits of `m`, then a rest that ends the number, read as the integer `m`. -/
theorem readNumber_toDigits (positive : Bool) {m : Nat} (hm : m ≤ maxU64) :
    Reads (Cursor.readNumber positive) (Nat.toDigits 10 m) (integerNumber positive m) := by
  intro rest p hrest
  -- the reader stops at the end, or at a character that is no part of a number
  have hafter : ∀ q, readAfterInteger positive m ⟨rest, q⟩ =
      .ok (integerNumber positive m, ⟨rest, q⟩) := by
    intro q
    cases rest with
    | nil => simp [readAfterInteger, peek?]
    | cons ch tail =>
        obtain ⟨-, h₁, h₂, h₃⟩ := not_number_of_ends hrest
        simp [readAfterInteger, peek?, h₁, h₂, h₃]
  rcases Nat.eq_zero_or_pos m with rfl | hpos
  · refine ⟨p.advance '0', ?_⟩
    cases rest with
    | nil => simp [Nat.toDigits_zero, Cursor.readNumber, hafter]
    | cons ch tail =>
        simp [Nat.toDigits_zero, Cursor.readNumber, (not_number_of_ends hrest).1, hafter]
  · obtain ⟨q, hq⟩ := readNumber_toDigits_pos positive hpos hm rest p
    refine ⟨q, ?_⟩
    rw [hq]
    cases rest with
    | nil => simp [readIntegerDigits, hafter]
    | cons ch tail => simp [readIntegerDigits, (not_number_of_ends hrest).1, hafter]

/-- The text of a 64-bit integer: below zero a minus sign and the digits of its magnitude,
from zero on its digits. -/
theorem toList_compact_ofInt64 (n : Int64) :
    (compact (ofInt64 n)).toList = if n < 0 then '-' :: Nat.toDigits 10 n.toInt.natAbs
      else Nat.toDigits 10 n.toUInt64.toNat := by
  unfold ofInt64
  split
  · rename_i hn
    have hlt : n.toInt < 0 := by simpa using Int64.lt_iff_toInt_lt.mp hn
    obtain ⟨k, hk⟩ : ∃ k, n.toInt = Int.negSucc k := ⟨n.toInt.natAbs - 1, by omega⟩
    simp [compact, Number.text, hk, show ∀ i : Int, toString i = i.repr from fun _ => rfl,
      Int.repr, Nat.toList_repr]
  · simp [compact, Number.text, show ∀ k : Nat, toString k = k.repr from fun _ => rfl,
      Nat.toList_repr]

theorem integerNumber_of_neg {n : Int64} (hn : n < 0) :
    n.toInt.natAbs ≤ maxU64 ∧ integerNumber false n.toInt.natAbs = .signed n := by
  have hlt : n.toInt < 0 := by simpa using Int64.lt_iff_toInt_lt.mp hn
  have hge := Int64.le_toInt n
  refine ⟨by rw [maxU64_eq]; omega, ?_⟩
  have hne : ¬(n.toInt.natAbs = 0 ∨ n.toInt.natAbs > Nat.pow 2 63) := by rw [Nat.pow_eq]; omega
  simp only [integerNumber, Bool.false_eq_true, if_false, hne]
  rw [show -((n.toInt.natAbs : Nat) : Int) = n.toInt by omega, Int64.ofInt_toInt]

theorem integerNumber_toNat (k : UInt64) :
    k.toNat ≤ maxU64 ∧ integerNumber true k.toNat = .unsigned k := by
  have hlt := k.toNat_lt
  refine ⟨by rw [maxU64_eq]; omega, ?_⟩
  simp [integerNumber]

theorem isDigit_of_mem_toDigits {ch : Char} {m : Nat} (h : ch ∈ Nat.toDigits 10 m) :
    isDigit ch = true := by
  have := Nat.isDigit_of_mem_toDigits (by decide) (by decide) h
  simpa [isDigit, Char.isDigit, Char.le_def] using this

/-! ### Values -/

theorem isBlank_of_isDigit {ch : Char} (h : isDigit ch = true) : isBlank ch = false := by
  cases hb : isBlank ch
  · rfl
  · simp only [isBlank, Bool.or_eq_true, decide_eq_true_eq] at hb
    rcases hb with ((rfl | rfl) | rfl) | rfl <;> exact absurd h (by decide)

/-- The fuel a reader is given at a cursor is never zero. -/
theorem fuel_eq_succ (c : Cursor) : c.fuel = (2 * c.rest.length + 3) + 1 := rfl

theorem readValue_skipBlank (fuel depth : Nat) (c : Cursor) :
    readValue (fuel + 1) depth c = readValue (fuel + 1) depth c.skipBlank := by
  simp only [readValue, skipBlank_skipBlank]

/-- A value that starts with a digit is a number. -/
theorem readValue_of_digit {ch : Char} (h : isDigit ch = true) (fuel depth : Nat)
    (rest : List Char) (p : Pos) :
    readValue (fuel + 1) depth ⟨ch :: rest, p⟩ =
      (do let (n, d) ← Cursor.readNumber true ⟨ch :: rest, p⟩; pure (.num n, d)) := by
  rw [readValue, skipBlank_of_head (isBlank_of_isDigit h)]
  dsimp only
  split
  · exact absurd ‹ch :: rest = []› (List.cons_ne_nil _ _)
  -- the other characters that open a value are no digits
  iterate 7
    · obtain ⟨rfl, -⟩ := List.cons.inj ‹ch :: rest = _ :: _›
      exact absurd h (by decide)
  · obtain ⟨rfl, rfl⟩ := List.cons.inj ‹ch :: rest = _ :: _›
    simp [h]

theorem pretty_ofInt64 (level : Nat) (n : Int64) :
    pretty level (ofInt64 n) = compact (ofInt64 n) := by
  unfold ofInt64
  split <;> simp [pretty]

theorem toList_compact_unsigned (n : UInt64) :
    (compact (.num (.unsigned n))).toList = Nat.toDigits 10 n.toNat := by
  simp [compact, Number.text, show ∀ k : Nat, toString k = k.repr from fun _ => rfl,
    Nat.toList_repr]

theorem readValue_unsigned (n : UInt64) (fuel depth : Nat) :
    Reads (readValue (fuel + 1) depth) (compact (.num (.unsigned n))).toList
      (.num (.unsigned n)) := by
  intro rest p hrest
  obtain ⟨hle, hnum⟩ := integerNumber_toNat n
  obtain ⟨q, hq⟩ := readNumber_toDigits true hle rest p hrest
  obtain ⟨d, ds, hds⟩ := List.exists_cons_of_ne_nil (Nat.toDigits_ne_nil (n := n.toNat))
  have hd : isDigit d = true := isDigit_of_mem_toDigits (hds ▸ List.mem_cons_self)
  refine ⟨q, ?_⟩
  rw [toList_compact_unsigned, hds]
  rw [hds] at hq
  rw [List.cons_append, readValue_of_digit hd, ← List.cons_append, hq]
  simp [hnum, Functor.map, Except.map]

theorem readValue_ofInt64 (n : Int64) (fuel depth : Nat) :
    Reads (readValue (fuel + 1) depth) (compact (ofInt64 n)).toList (ofInt64 n) := by
  by_cases hn : n < 0
  · intro rest p hrest
    rw [toList_compact_ofInt64, if_pos hn]
    obtain ⟨hle, hnum⟩ := integerNumber_of_neg hn
    obtain ⟨q, hq⟩ := readNumber_toDigits false hle rest (p.advance '-') hrest
    refine ⟨q, ?_⟩
    simp [readValue, skipBlank_of_head (c := '-') rfl, bump, hq, hnum, ofInt64, hn, Functor.map,
      Except.map]
  · rw [show ofInt64 n = .num (.unsigned n.toUInt64) by simp [ofInt64, hn]]
    exact readValue_unsigned n.toUInt64 fuel depth

theorem readValue_escape (s : String) (fuel depth : Nat) :
    Reads (readValue (fuel + 1) depth) (escape s).toList (.str s) := by
  intro rest p _
  obtain ⟨q, hq⟩ := bump_readString_escape s rest p
  obtain ⟨body, hbody⟩ : ∃ body, (escape s).toList = '"' :: body := ⟨_, toList_escape s⟩
  refine ⟨q, ?_⟩
  rw [hbody, List.cons_append] at hq ⊢
  simp [readValue, skipBlank_of_head (c := '"') rfl, hq, Functor.map, Except.map]

theorem readValue_bool (b : Bool) (fuel depth : Nat) :
    Reads (readValue (fuel + 1) depth) (compact (.bool b)).toList (.bool b) := by
  intro rest p _
  cases b
  · exact ⟨_, by simp [compact, readValue, skipBlank_of_head (c := 'f') rfl, bump, expectWord,
      Functor.map, Except.map]; rfl⟩
  · exact ⟨_, by simp [compact, readValue, skipBlank_of_head (c := 't') rfl, bump, expectWord,
      Functor.map, Except.map]; rfl⟩

theorem opens_escape (s : String) : Opens (escape s).toList :=
  ⟨'"', _, toList_escape s, rfl, by decide, by decide⟩

theorem opens_toDigits (m : Nat) : Opens (Nat.toDigits 10 m) := by
  obtain ⟨d, ds, hds⟩ := List.exists_cons_of_ne_nil (Nat.toDigits_ne_nil (n := m))
  have hd : isDigit d = true := isDigit_of_mem_toDigits (hds ▸ List.mem_cons_self)
  refine ⟨d, ds, hds, isBlank_of_isDigit hd, ?_, ?_⟩ <;> rintro rfl <;> exact absurd hd (by decide)

theorem opens_ofInt64 (n : Int64) : Opens (compact (ofInt64 n)).toList := by
  rw [toList_compact_ofInt64]
  split
  · exact ⟨'-', _, rfl, rfl, by decide, by decide⟩
  · exact opens_toDigits _

theorem opens_bool (b : Bool) : Opens (compact (.bool b)).toList := by
  cases b
  · exact ⟨'f', _, by simp [compact]; rfl, rfl, by decide, by decide⟩
  · exact ⟨'t', _, by simp [compact]; rfl, rfl, by decide, by decide⟩

/-! ### Lists and maps over lines -/

/-- The items of a list or map as the indented printer lays them out, from the one after
`first` on: each on a line of its own after the blanks `ind`, separated by commas. -/
def layout (ind : List Char) : Bool → List (List Char) → List Char
  | _, [] => []
  | first, t :: ts => (if first then [] else [',']) ++ '\n' :: ind ++ t ++ layout ind false ts

theorem intercalate_lines (ind t : List Char) (ts : List (List Char)) :
    [',', '\n'].intercalate ((t :: ts).map (ind ++ ·)) = ind ++ t ++ layout ind false ts := by
  induction ts generalizing t with
  | nil => simp [layout]
  | cons t' ts ih =>
      rw [List.map_cons, List.map_cons, List.intercalate_cons_cons, ← List.map_cons, ih]
      simp [layout]

theorem prettyItems_eq (level : Nat) (items : List Json) :
    prettyItems level items = items.map fun v => indent level ++ pretty level v := by
  induction items with
  | nil => rfl
  | cons v vs ih => rw [prettyItems, ih, List.map_cons]

theorem prettyMembers_eq (level : Nat) (members : List (String × Json)) :
    prettyMembers level members =
      members.map fun m => indent level ++ escape m.1 ++ ": " ++ pretty level m.2 := by
  induction members with
  | nil => rfl
  | cons m ms ih => rw [prettyMembers, ih, List.map_cons]

/-- A list that is not empty: each item on a line of its own, indented one level deeper. -/
theorem toList_pretty_arr (level : Nat) {items : List Json} (h : items ≠ []) :
    (pretty level (.arr items)).toList =
      '[' :: layout (indent (level + 1)).toList true
        (items.map fun v => (pretty (level + 1) v).toList) ++
        '\n' :: (indent level).toList ++ [']'] := by
  obtain ⟨v, vs, rfl⟩ := List.exists_cons_of_ne_nil h
  rw [pretty.eq_3 _ _ h, prettyItems_eq]
  have hlines := intercalate_lines (indent (level + 1)).toList (pretty (level + 1) v).toList
    (vs.map fun w => (pretty (level + 1) w).toList)
  simp only [List.map_cons, List.map_map, Function.comp_def] at hlines
  simp only [String.toList_append, String.toList_intercalate, List.map_map, Function.comp_def,
    List.map_cons, show ",\n".toList = [',', '\n'] by simp]
  rw [hlines]
  simp [layout]

/-- A member of a map as the indented printer writes it at `level`: its key, a colon and a
blank, and its value. -/
def memberText (level : Nat) (m : String × Json) : List Char :=
  (escape m.1).toList ++ ':' :: ' ' :: (pretty level m.2).toList

/-- A map that is not empty: each member on a line of its own, indented one level deeper. -/
theorem toList_pretty_obj (level : Nat) {members : List (String × Json)} (h : members ≠ []) :
    (pretty level (.obj members)).toList =
      '\x7b' :: layout (indent (level + 1)).toList true (members.map (memberText (level + 1))) ++
        '\n' :: (indent level).toList ++ ['\x7d'] := by
  obtain ⟨m, ms, rfl⟩ := List.exists_cons_of_ne_nil h
  rw [pretty.eq_4 _ _ h, prettyMembers_eq]
  have hlines := intercalate_lines (indent (level + 1)).toList (memberText (level + 1) m)
    (ms.map (memberText (level + 1)))
  simp only [memberText, List.map_cons, List.map_map, Function.comp_def, List.append_assoc]
    at hlines
  simp only [String.toList_append, String.toList_intercalate, List.map_map, Function.comp_def,
    List.map_cons, show ",\n".toList = [',', '\n'] by simp, show ": ".toList = [':', ' '] by simp,
    List.append_assoc, List.cons_append, List.nil_append]
  rw [hlines]
  simp [layout, memberText]

/-- A line break and an indent are blanks. -/
theorem isBlank_lineBreak {ind : List Char} (hind : ∀ ch ∈ ind, isBlank ch = true) :
    ∀ ch ∈ '\n' :: ind, isBlank ch = true := by
  intro ch hch
  rcases List.mem_cons.mp hch with rfl | hch
  · rfl
  · exact hind ch hch

/-- Before an item on a line of its own the list reader finds the item: it passes the
comma, unless the item is the first, and the blanks. -/
theorem nextItem_line {ind : List Char} (hind : ∀ ch ∈ ind, isBlank ch = true) (first : Bool)
    {t : List Char} (ht : Opens t) (rest : List Char) (p : Pos) :
    ∃ q, nextItem ⟨(if first then [] else [',']) ++ '\n' :: ind ++ t ++ rest, p⟩ first =
      .ok (true, ⟨t ++ rest, q⟩) := by
  obtain ⟨ch, t', rfl, hblank, hclose, -⟩ := ht
  have hhead : ∀ c ∈ (ch :: (t' ++ rest)).head?, isBlank c = false := by simpa using hblank
  cases first with
  | true =>
      obtain ⟨q, hq⟩ := skipBlank_append (isBlank_lineBreak hind) hhead p
      refine ⟨q, ?_⟩
      simp only [if_true, List.nil_append, List.cons_append, List.append_assoc] at hq ⊢
      simp [nextItem, hq, peek?]
  | false =>
      obtain ⟨q, hq⟩ := skipBlank_append (isBlank_lineBreak hind) hhead (p.advance ',')
      refine ⟨q, ?_⟩
      simp only [List.cons_append, List.append_assoc] at hq ⊢
      simp [nextItem, skipBlank_of_head (c := ',') rfl, peek?, bump, hq]

/-- After the last item, the blanks before the closing bracket end the list. -/
theorem nextItem_close {bs : List Char} (hbs : ∀ ch ∈ bs, isBlank ch = true) (first : Bool)
    (after : List Char) (p : Pos) :
    ∃ q, nextItem ⟨bs ++ ']' :: after, p⟩ first = .ok (false, ⟨']' :: after, q⟩) := by
  obtain ⟨q, hq⟩ := skipBlank_append hbs
    (show ∀ c ∈ (']' :: after).head?, isBlank c = false by simp; rfl) p
  exact ⟨q, by simp [nextItem, hq, peek?]⟩

/-- Before a member on a line of its own the map reader finds its key: it passes the
comma, unless the member is the first, and the blanks. -/
theorem nextMember_line {ind : List Char} (hind : ∀ ch ∈ ind, isBlank ch = true) (first : Bool)
    {t : List Char} (ht : ∃ t', t = '"' :: t') (rest : List Char) (p : Pos) :
    ∃ q, nextMember ⟨(if first then [] else [',']) ++ '\n' :: ind ++ t ++ rest, p⟩ first =
      .ok (true, ⟨t ++ rest, q⟩) := by
  obtain ⟨t, rfl⟩ := ht
  have hhead : ∀ c ∈ ('"' :: (t ++ rest)).head?, isBlank c = false := by simp; rfl
  cases first with
  | true =>
      obtain ⟨q, hq⟩ := skipBlank_append (isBlank_lineBreak hind) hhead p
      refine ⟨q, ?_⟩
      simp only [if_true, List.nil_append, List.cons_append, List.append_assoc] at hq ⊢
      simp [nextMember, hq, peek?]
  | false =>
      obtain ⟨q, hq⟩ := skipBlank_append (isBlank_lineBreak hind) hhead (p.advance ',')
      refine ⟨q, ?_⟩
      simp only [List.cons_append, List.append_assoc] at hq ⊢
      simp [nextMember, skipBlank_of_head (c := ',') rfl, peek?, bump, hq]

/-- A member on a line of its own: the map reader finds it and reads its name, which
leaves it before the colon. -/
theorem member_line {ind : List Char} (hind : ∀ ch ∈ ind, isBlank ch = true) (first : Bool)
    (key : String) (rest : List Char) (p : Pos) :
    ∃ q₁ q₂, nextMember ⟨(if first then [] else [',']) ++
        '\n' :: (ind ++ ((escape key).toList ++ ':' :: rest)), p⟩ first =
        .ok (true, ⟨(escape key).toList ++ ':' :: rest, q₁⟩) ∧
      (Cursor.bump ⟨(escape key).toList ++ ':' :: rest, q₁⟩).readString =
        .ok (key, ⟨':' :: rest, q₂⟩) := by
  obtain ⟨q₁, hq₁⟩ := nextMember_line hind first (t := (escape key).toList)
    ⟨_, toList_escape key⟩ (':' :: rest) p
  obtain ⟨q₂, hq₂⟩ := bump_readString_escape key (':' :: rest) q₁
  exact ⟨q₁, q₂, by simpa only [List.append_assoc, List.cons_append] using hq₁, hq₂⟩

theorem expectColon_colon (rest : List Char) (p : Pos) :
    expectColon ⟨':' :: rest, p⟩ = .ok ⟨rest, p.advance ':'⟩ := by
  simp [expectColon, skipBlank_of_head (c := ':') rfl, peek?, bump]

/-- After the last member, the blanks before the closing brace end the map. -/
theorem nextMember_close {bs : List Char} (hbs : ∀ ch ∈ bs, isBlank ch = true) (first : Bool)
    (after : List Char) (p : Pos) :
    ∃ q, nextMember ⟨bs ++ '\x7d' :: after, p⟩ first = .ok (false, ⟨'\x7d' :: after, q⟩) := by
  obtain ⟨q, hq⟩ := skipBlank_append hbs
    (show ∀ c ∈ ('\x7d' :: after).head?, isBlank c = false by simp; rfl) p
  exact ⟨q, by simp [nextMember, hq, peek?]⟩

/-- What follows an item in a list laid out over lines ends it: the comma before the next
item, or the blanks and the bracket that close the list. -/
theorem ends_layout {bs : List Char} (hbs : ∀ ch ∈ bs, isBlank ch = true) (ind : List Char)
    (ts : List (List Char))
    (close : Char) (hclose : close = ']' ∨ close = '\x7d') (after : List Char) :
    Ends (layout ind false ts ++ bs ++ close :: after) := by
  intro ch hch
  cases ts with
  | cons t ts =>
      simp [layout] at hch
      subst hch
      exact .inr (.inl rfl)
  | nil =>
      cases bs with
      | nil =>
          simp only [layout, List.nil_append, List.head?_cons, Option.mem_def,
            Option.some.injEq] at hch
          subst hch
          exact .inr (.inr hclose)
      | cons b bs =>
          simp only [layout, List.nil_append, List.cons_append, List.head?_cons, Option.mem_def,
            Option.some.injEq] at hch
          subst hch
          exact .inl (hbs b List.mem_cons_self)

theorem closeArray_bracket (rest : List Char) (p : Pos) :
    closeArray ⟨']' :: rest, p⟩ = .ok ⟨rest, p.advance ']'⟩ := by
  simp [closeArray, skipBlank_of_head (c := ']') rfl, peek?, bump]

theorem closeObject_brace (rest : List Char) (p : Pos) :
    closeObject ⟨'\x7d' :: rest, p⟩ = .ok ⟨rest, p.advance '\x7d'⟩ := by
  simp [closeObject, skipBlank_of_head (c := '\x7d') rfl, peek?, bump]

theorem finish_nil (p : Pos) : Cursor.finish ⟨[], p⟩ = .ok () := by
  simp [Cursor.finish, skipBlank, skipBlankFrom, peek?]

/-- The items of a list laid out over lines, each of which the value reader reads back with
fuel for its text, are read back in order, up to the closing bracket. The fuel has to
exceed the length of what is left of the list: each item takes one unit, and at least one
character. -/
theorem readItems_layout {depth : Nat} {ind bs : List Char} (hind : ∀ ch ∈ ind, isBlank ch = true)
    (hbs : ∀ ch ∈ bs, isBlank ch = true) {text : Json → List Char} (after : List Char) :
    ∀ (vs : List Json),
      (∀ v ∈ vs, ∀ fuel, (text v).length ≤ fuel → Reads (readValue (fuel + 1) depth) (text v) v) →
      (∀ v ∈ vs, Opens (text v)) → ∀ (fuel : Nat) (first : Bool) (acc : List Json) (p : Pos),
      (layout ind first (vs.map text) ++ bs).length < fuel →
      ∃ q, readItems fuel depth ⟨layout ind first (vs.map text) ++ bs ++ ']' :: after, p⟩
          first acc =
        .ok (acc.reverse ++ vs, ⟨']' :: after, q⟩)
  | [], _, _, fuel + 1, first, acc, p, _ => by
      obtain ⟨q, hq⟩ := nextItem_close hbs first after p
      exact ⟨q, by simp [readItems, layout, hq]⟩
  | v :: vs, hread, hopen, fuel + 1, first, acc, p, hlen => by
      -- the line of `v`, then the rest of the list
      have hrest := ends_layout hbs ind (vs.map text) ']' (.inl rfl) after
      obtain ⟨q, hq⟩ := nextItem_line hind first (hopen v List.mem_cons_self)
        (layout ind false (vs.map text) ++ bs ++ ']' :: after) p
      obtain ⟨ch, t, ht, -⟩ := hopen v List.mem_cons_self
      have hlen' : (layout ind false (vs.map text) ++ bs).length < fuel := by
        simp only [List.map_cons, layout, List.length_append, List.length_cons, ht] at hlen ⊢
        omega
      have hitem : (text v).length < fuel := by
        simp only [List.map_cons, layout, List.length_append, List.length_cons] at hlen
        omega
      obtain ⟨fuel', rfl⟩ : ∃ fuel', fuel = fuel' + 1 := ⟨fuel - 1, by omega⟩
      obtain ⟨q', hq'⟩ := hread v List.mem_cons_self fuel' (by omega) _ q hrest
      obtain ⟨q'', hq''⟩ := readItems_layout hind hbs after vs
        (fun w hw => hread w (List.mem_cons_of_mem v hw))
        (fun w hw => hopen w (List.mem_cons_of_mem v hw))
        (fuel' + 1) false (v :: acc) q' hlen'
      refine ⟨q'', ?_⟩
      simp only [List.map_cons, layout, List.append_assoc, List.cons_append] at hq ⊢
      rw [readItems, hq]
      simp only [List.append_assoc] at hq'
      simp only [hq', List.append_assoc] at hq'' ⊢
      simpa using hq''

theorem isBlank_indent (level : Nat) : ∀ ch ∈ (indent level).toList, isBlank ch = true := by
  intro ch hch
  simp only [indent, String.toList_ofList, List.mem_replicate] at hch
  rw [hch.2]
  rfl

theorem pretty_str (level : Nat) (s : String) : pretty level (.str s) = escape s := by
  simp [pretty, compact]

theorem opens_pretty_arr (level : Nat) (vs : List Json) :
    Opens (pretty level (.arr vs)).toList := by
  cases vs with
  | nil => exact ⟨'[', [']'], by simp [pretty], rfl, by decide, by decide⟩
  | cons v vs =>
      exact ⟨'[', _, toList_pretty_arr level (List.cons_ne_nil v vs), rfl, by decide, by decide⟩

theorem opens_pretty_obj (level : Nat) (ms : List (String × Json)) :
    Opens (pretty level (.obj ms)).toList := by
  cases ms with
  | nil => exact ⟨'\x7b', ['\x7d'], by simp [pretty], rfl, by decide, by decide⟩
  | cons m ms =>
      exact ⟨'\x7b', _, toList_pretty_obj level (List.cons_ne_nil m ms), rfl, by decide, by decide⟩

/-- A list that the indented printer writes, of items that the value reader reads back one
level deeper, is read back as the list. -/
theorem readValue_pretty_arr {level depth : Nat} (hdepth : 1 < depth) {vs : List Json}
    (hread : ∀ v ∈ vs, ∀ fuel, (pretty (level + 1) v).toList.length ≤ fuel →
      Reads (readValue (fuel + 1) (depth - 1)) (pretty (level + 1) v).toList v)
    (hopen : ∀ v ∈ vs, Opens (pretty (level + 1) v).toList) {fuel : Nat}
    (hfuel : (pretty level (.arr vs)).toList.length ≤ fuel) :
    Reads (readValue (fuel + 1) depth) (pretty level (.arr vs)).toList (.arr vs) := by
  intro rest p _
  have hdeep : ¬depth ≤ 1 := by omega
  cases vs with
  | nil =>
      have htext : (pretty level (.arr [])).toList = ['[', ']'] := by simp [pretty]
      rw [htext] at hfuel ⊢
      obtain ⟨fuel', rfl⟩ : ∃ fuel', fuel = fuel' + 1 := ⟨fuel - 1, by simp at hfuel; omega⟩
      obtain ⟨q, hq⟩ := nextItem_close (List.forall_mem_nil _) true rest (p.advance '[')
      rw [List.nil_append] at hq
      exact ⟨q.advance ']', by simp [readValue, skipBlank_of_head (c := '[') rfl, hdeep, bump,
        readItems, hq, closeArray_bracket, bind, Except.bind, pure, Except.pure]⟩
  | cons v vs =>
      rw [toList_pretty_arr level (List.cons_ne_nil v vs)] at hfuel ⊢
      obtain ⟨q, hq⟩ := readItems_layout (isBlank_indent (level + 1))
        (isBlank_lineBreak (isBlank_indent level)) rest (v :: vs) hread hopen fuel true []
        (p.advance '[') (by simp only [List.length_append, List.length_cons] at hfuel ⊢; omega)
      simp only [List.map_cons, List.append_assoc, List.cons_append, List.reverse_nil,
        List.nil_append] at hq ⊢
      exact ⟨q.advance ']', by simp [readValue, skipBlank_of_head (c := '[') rfl, hdeep, bump, hq,
        closeArray_bracket, bind, Except.bind, pure, Except.pure]⟩

/-- The members of a map laid out over lines, the value of each of which the value reader
reads back with fuel for its text, are read back in order, up to the closing brace. The
fuel has to exceed the length of what is left of the map. -/
theorem readMembers_layout {depth level : Nat} {ind bs : List Char}
    (hind : ∀ ch ∈ ind, isBlank ch = true) (hbs : ∀ ch ∈ bs, isBlank ch = true)
    (after : List Char) :
    ∀ (ms : List (String × Json)),
      (∀ m ∈ ms, ∀ fuel, (pretty level m.2).toList.length ≤ fuel →
        Reads (readValue (fuel + 1) depth) (pretty level m.2).toList m.2) →
      (∀ m ∈ ms, Opens (pretty level m.2).toList) →
      ∀ (fuel : Nat) (first : Bool) (acc : List (String × Json)) (p : Pos),
      (layout ind first (ms.map (memberText level)) ++ bs).length < fuel →
      ∃ q, readMembers fuel depth
          ⟨layout ind first (ms.map (memberText level)) ++ bs ++ '\x7d' :: after, p⟩ first acc =
        .ok (acc.reverse ++ ms, ⟨'\x7d' :: after, q⟩)
  | [], _, _, fuel + 1, first, acc, p, _ => by
      obtain ⟨q, hq⟩ := nextMember_close hbs first after p
      exact ⟨q, by simp [readMembers, layout, hq]⟩
  | m :: ms, hread, hopen, fuel + 1, first, acc, p, hlen => by
      -- the line of `m`: its key, the colon, and its value after a blank
      have hrest := ends_layout hbs ind (ms.map (memberText level)) '\x7d' (.inr rfl) after
      obtain ⟨q₁, q₂, hq₁, hq₂⟩ := member_line hind first m.1
        (' ' :: (pretty level m.2).toList ++
          (layout ind false (ms.map (memberText level)) ++ bs ++ '\x7d' :: after)) p
      have hkey : 2 ≤ (escape m.1).toList.length := by
        rw [toList_escape]
        simp
      have hvalue : (pretty level m.2).toList.length + 2 < fuel := by
        simp only [List.map_cons, layout, memberText, List.length_append, List.length_cons]
          at hlen
        omega
      obtain ⟨fuel', rfl⟩ : ∃ fuel', fuel = fuel' + 1 := ⟨fuel - 1, by omega⟩
      obtain ⟨q₃, hq₃⟩ := Reads.blank (readValue_skipBlank fuel' depth)
        (hread m List.mem_cons_self fuel' (by omega)) (hopen m List.mem_cons_self) _
        (q₂.advance ':') hrest
      have hlen' : (layout ind false (ms.map (memberText level)) ++ bs).length < fuel' + 1 := by
        simp only [List.map_cons, layout, memberText, List.length_append, List.length_cons]
          at hlen ⊢
        omega
      obtain ⟨q₄, hq₄⟩ := readMembers_layout hind hbs after ms
        (fun m' hm => hread m' (List.mem_cons_of_mem m hm))
        (fun m' hm => hopen m' (List.mem_cons_of_mem m hm)) (fuel' + 1) false (m :: acc) q₃ hlen'
      refine ⟨q₄, ?_⟩
      simp only [List.map_cons, layout, memberText, List.append_assoc, List.cons_append]
        at hq₁ ⊢
      rw [readMembers, hq₁]
      simp only [List.cons_append, List.append_assoc] at hq₂ hq₃
      simp only [hq₂, expectColon_colon, hq₃, List.append_assoc] at hq₄ ⊢
      simpa using hq₄

/-- A map that the indented printer writes, of values that the value reader reads back one
level deeper, is read back as the map. -/
theorem readValue_pretty_obj {level depth : Nat} (hdepth : 1 < depth) {ms : List (String × Json)}
    (hread : ∀ m ∈ ms, ∀ fuel, (pretty (level + 1) m.2).toList.length ≤ fuel →
      Reads (readValue (fuel + 1) (depth - 1)) (pretty (level + 1) m.2).toList m.2)
    (hopen : ∀ m ∈ ms, Opens (pretty (level + 1) m.2).toList) {fuel : Nat}
    (hfuel : (pretty level (.obj ms)).toList.length ≤ fuel) :
    Reads (readValue (fuel + 1) depth) (pretty level (.obj ms)).toList (.obj ms) := by
  intro rest p _
  have hdeep : ¬depth ≤ 1 := by omega
  cases ms with
  | nil =>
      have htext : (pretty level (.obj [])).toList = ['\x7b', '\x7d'] := by simp [pretty]
      rw [htext] at hfuel ⊢
      obtain ⟨fuel', rfl⟩ : ∃ fuel', fuel = fuel' + 1 := ⟨fuel - 1, by simp at hfuel; omega⟩
      obtain ⟨q, hq⟩ := nextMember_close (List.forall_mem_nil _) true rest (p.advance '\x7b')
      rw [List.nil_append] at hq
      exact ⟨q.advance '\x7d', by simp [readValue, skipBlank_of_head (c := '\x7b') rfl, hdeep,
        bump, readMembers, hq, closeObject_brace, bind, Except.bind, pure, Except.pure]⟩
  | cons m ms =>
      rw [toList_pretty_obj level (List.cons_ne_nil m ms)] at hfuel ⊢
      obtain ⟨q, hq⟩ := readMembers_layout (isBlank_indent (level + 1))
        (isBlank_lineBreak (isBlank_indent level)) rest (m :: ms) hread hopen fuel true []
        (p.advance '\x7b') (by simp only [List.length_append, List.length_cons] at hfuel ⊢; omega)
      simp only [List.map_cons, List.append_assoc, List.cons_append, List.reverse_nil,
        List.nil_append] at hq ⊢
      exact ⟨q.advance '\x7d', by simp [readValue, skipBlank_of_head (c := '\x7b') rfl, hdeep,
        bump, hq, closeObject_brace, bind, Except.bind, pure, Except.pure]⟩

/-- A value written after a blank, which the value reader reads back with any fuel that
covers its text, is read back with the fuel of its own cursor, as members' values are. -/
theorem readValue_fuel_blank {depth : Nat} {t : List Char} {v : Json}
    (hread : ∀ fuel, t.length ≤ fuel → Reads (readValue (fuel + 1) depth) t v) (hopen : Opens t)
    {rest : List Char} (hrest : Ends rest) (p : Pos) :
    ∃ q, readValue (Cursor.fuel ⟨' ' :: t ++ rest, p⟩) depth ⟨' ' :: t ++ rest, p⟩ =
      .ok (v, ⟨rest, q⟩) :=
  Reads.blank (readValue_skipBlank _ depth) (hread _ (by simp; omega)) hopen rest p hrest

/-! ### Plain values -/

theorem opens_pretty_of_plain {d : Nat} {v : Json} (hv : Plain d v) (level : Nat) :
    Opens (pretty level v).toList := by
  cases hv with
  | bool _ b => simpa [pretty] using opens_bool b
  | str _ s => rw [pretty_str]; exact opens_escape s
  | unsigned _ n =>
      simpa [pretty, toList_compact_unsigned] using opens_toDigits n.toNat
  | @signed _ n hn => simpa [pretty, ofInt64, hn] using opens_ofInt64 n
  | arr _ => exact opens_pretty_arr level _
  | obj _ _ => exact opens_pretty_obj level _

/-- The value reader reads back every plain value the indented printer writes, at any
level, when it may open more levels of arrays and objects than the value has and has fuel
for the value's text. -/
theorem readValue_pretty {d : Nat} {v : Json} (hv : Plain d v) {depth : Nat}
    (hdepth : d < depth) (level fuel : Nat) (hfuel : (pretty level v).toList.length ≤ fuel) :
    Reads (readValue (fuel + 1) depth) (pretty level v).toList v := by
  induction hv generalizing depth level fuel with
  | bool _ b => simpa [pretty] using readValue_bool b fuel depth
  | str _ s => rw [pretty_str]; exact readValue_escape s fuel depth
  | unsigned _ n => simpa [pretty] using readValue_unsigned n fuel depth
  | @signed _ n hn => simpa [pretty, ofInt64, hn] using readValue_ofInt64 n fuel depth
  | arr h ih =>
      -- the items are read one level deeper, with the fuel their own texts need
      exact readValue_pretty_arr (by omega)
        (fun v hv fuel' hfuel' => ih v hv (by omega) (level + 1) fuel' hfuel')
        (fun v hv => opens_pretty_of_plain (h v hv) _) hfuel
  | obj _ h ih =>
      exact readValue_pretty_obj (by omega)
        (fun m hm fuel' hfuel' => ih m hm (by omega) (level + 1) fuel' hfuel')
        (fun m hm => opens_pretty_of_plain (h m hm) _) hfuel

theorem Plain.mono {d d' : Nat} {v : Json} (hv : Plain d v) (hle : d ≤ d') : Plain d' v := by
  induction hv generalizing d' with
  | bool _ b => exact .bool d' b
  | str _ s => exact .str d' s
  | unsigned _ n => exact .unsigned d' n
  | signed _ hn => exact .signed d' hn
  | arr _ ih =>
      obtain ⟨d', rfl⟩ : ∃ e, d' = e + 1 := ⟨d' - 1, by omega⟩
      exact .arr fun v hv => ih v hv (by omega)
  | obj hkeys _ ih =>
      obtain ⟨d', rfl⟩ : ∃ e, d' = e + 1 := ⟨d' - 1, by omega⟩
      exact .obj hkeys fun m hm => ih m hm (by omega)

end ExprSynth.Json
