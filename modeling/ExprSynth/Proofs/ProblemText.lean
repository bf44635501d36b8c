import ExprSynth.Proofs.JsonText
import ExprSynth.Problem.Read
import ExprSynth.Problem.Print

/-! Problem files read back. The indented text a problem is written as reads back as the
problem: its depth bound, the grammar's two lists, which the reader keeps aside and decodes
last, its variables and constants, and its examples, with their bindings as a map sorted by
name and their outputs read as integers before truth values. The proofs follow the reader:
a lemma for each kind of value, a loop lemma for each list and map, and the relation
`FieldsRead` for the members of the problem. -/

namespace ExprSynth

open Json Json.Cursor

/-! ### Maps of bindings -/

namespace Env

/-- A binding whose name is above every name of a sorted list goes last. -/
theorem insertSorted_of_lt {name : String} {v : Int64} :
    ∀ {acc : List (String × Int64)}, (∀ b ∈ acc, b.1 < name) →
      insertSorted name v acc = acc ++ [(name, v)]
  | [], _ => rfl
  | (k, w) :: rest, h => by
      have hk : k < name := h (k, w) List.mem_cons_self
      have hrest := insertSorted_of_lt (v := v) fun b hb => h b (List.mem_cons_of_mem _ hb)
      simp [insertSorted, String.lt_asymm hk, (String.ne_of_lt hk).symm, hrest]

/-- Bindings already sorted by name, with one binding per name, are inserted after
`acc` in order. -/
theorem foldl_insertSorted :
    ∀ {pairs acc : List (String × Int64)}, (acc ++ pairs).Pairwise (fun a b => a.1 < b.1) →
      pairs.foldl (fun acc p => insertSorted p.1 p.2 acc) acc = acc ++ pairs
  | [], acc, _ => by simp
  | (k, v) :: pairs, acc, h => by
      have hlt : ∀ b ∈ acc, b.1 < k :=
        fun b hb => (List.pairwise_append.mp h).2.2 b hb (k, v) List.mem_cons_self
      rw [List.foldl_cons, insertSorted_of_lt hlt, foldl_insertSorted (by simpa using h)]
      simp

/-- The bindings of a map, read in order, give back the map. -/
theorem ofList_bindings {env : Env} (h : env.bindings.Pairwise (fun a b => a.1 < b.1)) :
    ofList env.bindings = env := by
  obtain ⟨bindings⟩ := env
  simp only [ofList, @foldl_insertSorted bindings [] (by simpa using h), List.nil_append]

end Env

namespace Json

/-! ### Fields of one value -/

theorem readText_escape (s : String) : Reads readText (escape s).toList s := by
  intro rest p _
  obtain ⟨q, hq⟩ := bump_readString_escape s rest p
  obtain ⟨body, hbody⟩ : ∃ body, (escape s).toList = '"' :: body := ⟨_, toList_escape s⟩
  refine ⟨q, ?_⟩
  rw [hbody, List.cons_append] at hq ⊢
  simpa [readText, skipBlank_of_head (c := '"') rfl] using hq

/-- A non-negative 64-bit integer is its magnitude, below `2^63`. -/
theorem toNat_toUInt64_of_nonneg {n : Int64} (hn : ¬n < 0) :
    n.toUInt64.toNat < 2 ^ 63 ∧ n.toUInt64.toNat.toInt64 = n := by
  have hle : 0 ≤ n := by
    rw [Int64.le_iff_toInt_le]
    rw [Int64.lt_iff_toInt_lt] at hn
    simpa using hn
  rw [← Int64.toNat_toBitVec, Int64.toNat_toBitVec_of_le hle]
  exact ⟨Int64.toNatClampNeg_lt n, Int64.ofNat_toNatClampNeg n hle⟩

/-- A number that starts with a digit and is read as the unsigned `k` below `2^63` is read
as the integer `k`. -/
theorem readInt64_of_unsigned {d : Char} (hd : isDigit d = true) {rest after : List Char}
    {p q : Pos} {k : UInt64} (hq : readNumber true ⟨d :: rest, p⟩ = .ok (.unsigned k, ⟨after, q⟩))
    (hk : k.toNat < 2 ^ 63) : readInt64 ⟨d :: rest, p⟩ = .ok (k.toNat.toInt64, ⟨after, q⟩) := by
  unfold readInt64
  rw [skipBlank_of_head (isBlank_of_isDigit hd)]
  dsimp only
  split
  · exact absurd ‹d :: rest = []› (List.cons_ne_nil _ _)
  -- a digit is no minus sign
  · obtain ⟨rfl, -⟩ := List.cons.inj ‹d :: rest = _ :: _›
    exact absurd hd (by decide)
  · obtain ⟨rfl, rfl⟩ := List.cons.inj ‹d :: rest = _ :: _›
    simpa [hd, hq, bind, Except.bind, pure, Except.pure] using hk

/-- A number that starts with a digit and is read as the unsigned `k` is read as the
machine-sized natural number `k`. -/
theorem readUsize_of_unsigned {d : Char} (hd : isDigit d = true) {rest after : List Char}
    {p q : Pos} {k : UInt64} (hq : readNumber true ⟨d :: rest, p⟩ = .ok (.unsigned k, ⟨after, q⟩)) :
    readUsize ⟨d :: rest, p⟩ = .ok (k.toNat, ⟨after, q⟩) := by
  unfold readUsize
  rw [skipBlank_of_head (isBlank_of_isDigit hd)]
  dsimp only
  split
  · exact absurd ‹d :: rest = []› (List.cons_ne_nil _ _)
  · obtain ⟨rfl, -⟩ := List.cons.inj ‹d :: rest = _ :: _›
    exact absurd hd (by decide)
  · obtain ⟨rfl, rfl⟩ := List.cons.inj ‹d :: rest = _ :: _›
    simp [hd, hq, bind, Except.bind, pure, Except.pure]

theorem readInt64_ofInt64 (n : Int64) : Reads readInt64 (compact (ofInt64 n)).toList n := by
  intro rest p hrest
  rw [toList_compact_ofInt64]
  split
  · rename_i hn
    obtain ⟨hle, hnum⟩ := integerNumber_of_neg hn
    obtain ⟨q, hq⟩ := readNumber_toDigits false hle rest (p.advance '-') hrest
    refine ⟨q, ?_⟩
    simp [readInt64, skipBlank_of_head (c := '-') rfl, bump, hq, hnum, bind, Except.bind, pure,
      Except.pure]
  · rename_i hn
    obtain ⟨hle, hnum⟩ := integerNumber_toNat n.toUInt64
    obtain ⟨hsmall, hback⟩ := toNat_toUInt64_of_nonneg hn
    obtain ⟨q, hq⟩ := readNumber_toDigits true hle rest p hrest
    obtain ⟨d, ds, hds⟩ := List.exists_cons_of_ne_nil (Nat.toDigits_ne_nil (n := n.toUInt64.toNat))
    have hd : isDigit d = true := isDigit_of_mem_toDigits (hds ▸ List.mem_cons_self)
    rw [hds, List.cons_append, hnum] at hq
    exact ⟨q, by rw [hds, List.cons_append, readInt64_of_unsigned hd hq hsmall, hback]⟩

/-- The text of a natural number below `2^64`: its digits. -/
theorem toList_compact_ofNat {n : Nat} (hn : n < 2 ^ 64) :
    (compact (ofNat n)).toList = Nat.toDigits 10 n := by
  rw [ofNat, toList_compact_unsigned, UInt64.toNat_ofNat_of_lt' hn]

theorem readUsize_ofNat {n : Nat} (hn : n < 2 ^ 64) :
    Reads readUsize (compact (ofNat n)).toList n := by
  intro rest p hrest
  obtain ⟨hle, hnum⟩ := integerNumber_toNat n.toUInt64
  have hnat : n.toUInt64.toNat = n := UInt64.toNat_ofNat_of_lt' hn
  rw [hnat] at hle hnum
  obtain ⟨q, hq⟩ := readNumber_toDigits true hle rest p hrest
  obtain ⟨d, ds, hds⟩ := List.exists_cons_of_ne_nil (Nat.toDigits_ne_nil (n := n))
  have hd : isDigit d = true := isDigit_of_mem_toDigits (hds ▸ List.mem_cons_self)
  rw [hds, List.cons_append, hnum] at hq
  refine ⟨q, ?_⟩
  rw [toList_compact_ofNat hn, hds, List.cons_append, readUsize_of_unsigned hd hq, hnat]

/-! ### Lists -/

/-- The items of a list laid out over lines, each of which `item` reads back, are read back
in order, up to the closing bracket. The fuel has to exceed the length of what is left of
the list. -/
theorem readSeqItems_layout {α : Type} {item : Nat → Cursor → Except ReadError (α × Cursor)}
    {depth : Nat} {ind bs : List Char} (hind : ∀ ch ∈ ind, isBlank ch = true)
    (hbs : ∀ ch ∈ bs, isBlank ch = true) {text : α → List Char} (after : List Char) :
    ∀ (xs : List α), (∀ x ∈ xs, Reads (item depth) (text x) x) → (∀ x ∈ xs, Opens (text x)) →
      ∀ (fuel : Nat) (first : Bool) (acc : List α) (p : Pos),
      (layout ind first (xs.map text) ++ bs).length < fuel →
      ∃ q, readSeqItems item depth fuel
          ⟨layout ind first (xs.map text) ++ bs ++ ']' :: after, p⟩ first acc =
        .ok (acc.reverse ++ xs, ⟨']' :: after, q⟩)
  | [], _, _, fuel + 1, first, acc, p, _ => by
      obtain ⟨q, hq⟩ := nextItem_close hbs first after p
      exact ⟨q, by simp [readSeqItems, layout, hq, bind, Except.bind, pure, Except.pure]⟩
  | x :: xs, hread, hopen, fuel + 1, first, acc, p, hlen => by
      have hrest := ends_layout hbs ind (xs.map text) ']' (.inl rfl) after
      obtain ⟨q, hq⟩ := nextItem_line hind first (hopen x List.mem_cons_self)
        (layout ind false (xs.map text) ++ bs ++ ']' :: after) p
      have hlen' : (layout ind false (xs.map text) ++ bs).length < fuel := by
        simp only [List.map_cons, layout, List.length_append, List.length_cons] at hlen ⊢
        omega
      obtain ⟨q', hq'⟩ := hread x List.mem_cons_self _ q hrest
      obtain ⟨q'', hq''⟩ := readSeqItems_layout hind hbs after xs
        (fun y hy => hread y (List.mem_cons_of_mem x hy))
        (fun y hy => hopen y (List.mem_cons_of_mem x hy)) fuel false (x :: acc) q' hlen'
      refine ⟨q'', ?_⟩
      simp only [List.map_cons, layout, List.append_assoc, List.cons_append] at hq ⊢
      simp only [List.append_assoc] at hq' hq''
      simp [readSeqItems, hq, hq', hq'', bind, Except.bind]

/-- A list that the indented printer writes, of items that `item` reads back one level
deeper, is read back as the list of items. -/
theorem readSeq_pretty {α : Type} {item : Nat → Cursor → Except ReadError (α × Cursor)}
    {level depth : Nat} (hdepth : 1 < depth) {xs : List α} {json : α → Json}
    (hread : ∀ x ∈ xs, Reads (item (depth - 1)) (pretty (level + 1) (json x)).toList x)
    (hopen : ∀ x ∈ xs, Opens (pretty (level + 1) (json x)).toList) :
    Reads (readSeq item depth) (pretty level (.arr (xs.map json))).toList xs := by
  intro rest p _
  have hdeep : ¬depth ≤ 1 := by omega
  cases xs with
  | nil =>
      have htext : (pretty level (.arr (([] : List α).map json))).toList = ['[', ']'] := by
        simp [pretty]
      rw [htext]
      obtain ⟨q, hq⟩ := nextItem_close (List.forall_mem_nil _) true rest (p.advance '[')
      rw [List.nil_append] at hq
      exact ⟨q.advance ']', by simp [readSeq, skipBlank_of_head (c := '[') rfl, hdeep, bump,
        Cursor.fuel, readSeqItems, hq, closeArray_bracket, bind, Except.bind, pure, Except.pure]⟩
  | cons x xs =>
      rw [toList_pretty_arr level (by simp), List.map_map]
      have htext : (fun v => (pretty (level + 1) v).toList) ∘ json =
          fun x => (pretty (level + 1) (json x)).toList := rfl
      rw [htext]
      -- the reader's fuel is that of the cursor at the opening bracket
      obtain ⟨q, hq⟩ := readSeqItems_layout (isBlank_indent (level + 1))
        (isBlank_lineBreak (isBlank_indent level)) rest (x :: xs) hread hopen
        (Cursor.fuel ⟨'[' :: (layout (indent (level + 1)).toList true
          ((x :: xs).map fun x => (pretty (level + 1) (json x)).toList) ++
          '\n' :: (indent level).toList ++ ']' :: rest), p⟩) true [] (p.advance '[')
        (by simp only [Cursor.fuel, List.length_append, List.length_cons]; omega)
      refine ⟨q.advance ']', ?_⟩
      simp only [List.map_cons, List.append_assoc, List.cons_append, List.reverse_nil,
        List.nil_append] at hq ⊢
      simp [readSeq, skipBlank_of_head (c := '[') rfl, hdeep, bump, hq, closeArray_bracket, bind,
        Except.bind, pure, Except.pure]

/-! ### Bindings -/

theorem readInt64_skipBlank (c : Cursor) : readInt64 c = readInt64 c.skipBlank := by
  simp only [readInt64, skipBlank_skipBlank]

theorem readUsize_skipBlank (c : Cursor) : readUsize c = readUsize c.skipBlank := by
  simp only [readUsize, skipBlank_skipBlank]

/-- A binding as the indented printer writes it in a map: its name, a colon and a blank, and
its value. -/
def bindingText (b : String × Int64) : List Char :=
  (escape b.1).toList ++ ':' :: ' ' :: (compact (ofInt64 b.2)).toList

/-- A map of bindings that is not empty: a binding on each line. -/
theorem toList_pretty_env (level : Nat) {env : Env} (h : env.bindings ≠ []) :
    (pretty level env.toJson).toList =
      '\x7b' :: layout (indent (level + 1)).toList true (env.bindings.map bindingText) ++
        '\n' :: (indent level).toList ++ ['\x7d'] := by
  have htext : memberText (level + 1) ∘ (fun b : String × Int64 => (b.1, ofInt64 b.2)) =
      bindingText := by
    funext b
    simp [memberText, bindingText, pretty_ofInt64]
  rw [Env.toJson, toList_pretty_obj level (by simpa using h), List.map_map, htext]

/-- The bindings of a map laid out over lines are read back in order, up to the closing
brace. The fuel has to exceed the length of what is left of the map. -/
theorem readBindingMembers_layout {ind bs : List Char} (hind : ∀ ch ∈ ind, isBlank ch = true)
    (hbs : ∀ ch ∈ bs, isBlank ch = true) (after : List Char) :
    ∀ (pairs : List (String × Int64)) (fuel : Nat) (first : Bool) (acc : List (String × Int64))
      (p : Pos), (layout ind first (pairs.map bindingText) ++ bs).length < fuel →
      ∃ q, readBindingMembers fuel
          ⟨layout ind first (pairs.map bindingText) ++ bs ++ '\x7d' :: after, p⟩ first acc =
        .ok (acc.reverse ++ pairs, ⟨'\x7d' :: after, q⟩)
  | [], fuel + 1, first, acc, p, _ => by
      obtain ⟨q, hq⟩ := nextMember_close hbs first after p
      exact ⟨q, by simp [readBindingMembers, layout, hq, bind, Except.bind, pure, Except.pure]⟩
  | (k, v) :: pairs, fuel + 1, first, acc, p, hlen => by
      have hrest := ends_layout hbs ind (pairs.map bindingText) '\x7d' (.inr rfl) after
      -- the line break and indent, the name, the colon, and the value after a blank
      obtain ⟨q₁, q₂, hq₁, hq₂⟩ := member_line hind first k (' ' :: ((compact (ofInt64 v)).toList ++
        (layout ind false (pairs.map bindingText) ++ (bs ++ '\x7d' :: after)))) p
      obtain ⟨q₃, hq₃⟩ := Reads.blank readInt64_skipBlank (readInt64_ofInt64 v) (opens_ofInt64 v)
        _ (q₂.advance ':') hrest
      have hlen' : (layout ind false (pairs.map bindingText) ++ bs).length < fuel := by
        simp only [List.map_cons, layout, List.length_append, List.length_cons] at hlen ⊢
        omega
      obtain ⟨q₄, hq₄⟩ := readBindingMembers_layout hind hbs after pairs fuel false
        ((k, v) :: acc) q₃ hlen'
      refine ⟨q₄, ?_⟩
      simp only [List.map_cons, layout, bindingText, List.append_assoc, List.cons_append]
      simp only [List.append_assoc, List.cons_append] at hq₃ hq₄
      simp [readBindingMembers, hq₁, hq₂, expectColon_colon, hq₃, hq₄, bind, Except.bind]

/-- A map of bindings sorted by name, one binding per name, that the indented printer
writes is read back as the same bindings. -/
theorem readBindings_toJson {depth : Nat} (hdepth : 1 < depth) (level : Nat) {env : Env}
    (hsorted : env.bindings.Pairwise (fun a b => a.1 < b.1)) :
    Reads (readBindings depth) (pretty level env.toJson).toList env := by
  intro rest p _
  have hdeep : ¬depth ≤ 1 := by omega
  obtain ⟨bindings⟩ := env
  cases bindings with
  | nil =>
      have htext : (pretty level (Env.toJson ⟨[]⟩)).toList = ['\x7b', '\x7d'] := by
        simp [Env.toJson, pretty]
      rw [htext]
      obtain ⟨q, hq⟩ := nextMember_close (List.forall_mem_nil _) true rest (p.advance '\x7b')
      rw [List.nil_append] at hq
      exact ⟨q.advance '\x7d', by simp [readBindings, skipBlank_of_head (c := '\x7b') rfl, hdeep,
        bump, Cursor.fuel, readBindingMembers, hq, closeObject_brace, Env.ofList, bind, Except.bind,
        pure, Except.pure]⟩
  | cons b bs =>
      rw [toList_pretty_env level (List.cons_ne_nil b bs)]
      -- the reader's fuel is that of the cursor at the opening brace
      obtain ⟨q, hq⟩ := readBindingMembers_layout (isBlank_indent (level + 1))
        (isBlank_lineBreak (isBlank_indent level)) rest (b :: bs)
        (Cursor.fuel ⟨'\x7b' :: (layout (indent (level + 1)).toList true
          ((b :: bs).map bindingText) ++ '\n' :: (indent level).toList ++ '\x7d' :: rest), p⟩)
        true [] (p.advance '\x7b')
        (by simp only [Cursor.fuel, List.length_append, List.length_cons]; omega)
      refine ⟨q.advance '\x7d', ?_⟩
      simp only [List.map_cons, List.append_assoc, List.cons_append, List.reverse_nil,
        List.nil_append] at hq ⊢
      simp [readBindings, skipBlank_of_head (c := '\x7b') rfl, hdeep, bump, hq, closeObject_brace,
        @Env.ofList_bindings ⟨b :: bs⟩ hsorted, bind, Except.bind, pure, Except.pure]

end Json

/-! ### Examples -/

/-- An output's value decodes back to the output: a non-negative integer comes back through
the unsigned form it is written in. -/
theorem Value.decode_toJson (v : Value) : Value.decode v.toJson = .ok v := by
  cases v with
  | int n =>
      by_cases hn : n < 0
      · simp [Value.toJson, ofInt64, hn, Value.decode]
      · obtain ⟨hsmall, hback⟩ := toNat_toUInt64_of_nonneg hn
        simpa [Value.toJson, ofInt64, hn, Value.decode, hback] using hsmall
  | bool b => rfl

theorem pretty_value (level : Nat) (v : Value) : pretty level v.toJson = compact v.toJson := by
  cases v with
  | int n => exact pretty_ofInt64 level n
  | bool b => simp [Value.toJson, pretty]

/-- An output written after a member's colon and blank is read back. -/
theorem readOutput_toJson (depth level : Nat) (v : Value) {rest : List Char} (hrest : Ends rest)
    (p : Pos) :
    ∃ q, readOutput depth ⟨' ' :: (pretty level v.toJson).toList ++ rest, p⟩ =
      .ok (v, ⟨rest, q⟩) := by
  have hread : ∀ fuel, Reads (readValue (fuel + 1) depth) (compact v.toJson).toList v.toJson := by
    intro fuel
    cases v with
    | int n => exact readValue_ofInt64 n fuel depth
    | bool b => exact readValue_bool b fuel depth
  have hopen : Opens (compact v.toJson).toList := by
    cases v with
    | int n => exact opens_ofInt64 n
    | bool b => exact opens_bool b
  rw [pretty_value]
  obtain ⟨q, hq⟩ := readValue_fuel_blank (fun fuel _ => hread fuel) hopen hrest p
  refine ⟨q, ?_⟩
  unfold readOutput
  rw [hq]
  simp [Failure.lift, Except.mapError, Value.decode_toJson, bind, Except.bind, pure, Except.pure]

theorem readBindings_skipBlank (depth : Nat) (c : Cursor) :
    readBindings depth c = readBindings depth c.skipBlank := by
  simp only [readBindings, skipBlank_skipBlank]

theorem readSeq_skipBlank {α : Type} (item : Nat → Cursor → Except ReadError (α × Cursor))
    (depth : Nat) (c : Cursor) : readSeq item depth c = readSeq item depth c.skipBlank := by
  simp only [readSeq, skipBlank_skipBlank]

/-- An example whose bindings are sorted by name, one binding per name, that the indented
printer writes is read back as the example. -/
theorem readExample_toJson {depth : Nat} (hdepth : 2 < depth) (level : Nat) {ex : Example}
    (hsorted : ex.inputs.bindings.Pairwise (fun a b => a.1 < b.1)) :
    Reads (readExample depth) (pretty level ex.toJson).toList ex := by
  intro rest p _
  obtain ⟨inputs, output⟩ := ex
  have hdeep : ¬depth ≤ 1 := by omega
  have hind := isBlank_indent (level + 1)
  have hbs := isBlank_lineBreak (isBlank_indent level)
  rw [Example.toJson, toList_pretty_obj level (by simp)]
  simp only [List.map_cons, List.map_nil]
  -- the inputs on the first line, the output on the second, then the closing brace
  obtain ⟨q₁, q₂, hq₁, hq₂⟩ := member_line hind true "inputs" (' ' ::
    (pretty (level + 1) inputs.toJson).toList ++ layout (indent (level + 1)).toList false
      [(escape "output").toList ++ ':' :: ' ' :: (pretty (level + 1) output.toJson).toList] ++
      '\n' :: (indent level).toList ++ '\x7d' :: rest) (p.advance '\x7b')
  obtain ⟨q₃, hq₃⟩ := Reads.blank (readBindings_skipBlank (depth - 1))
    (readBindings_toJson (by omega) (level + 1) hsorted) (opens_pretty_obj _ _) _ (q₂.advance ':')
    (ends_layout hbs (indent (level + 1)).toList
      [(escape "output").toList ++ ':' :: ' ' :: (pretty (level + 1) output.toJson).toList]
      '\x7d' (.inr rfl) rest)
  obtain ⟨q₄, q₅, hq₄, hq₅⟩ := member_line hind false "output" (' ' ::
    (pretty (level + 1) output.toJson).toList ++ layout (indent (level + 1)).toList false [] ++
      '\n' :: (indent level).toList ++ '\x7d' :: rest) q₃
  obtain ⟨q₆, hq₆⟩ := readOutput_toJson (depth - 1) (level + 1) output
    (ends_layout hbs (indent (level + 1)).toList [] '\x7d' (.inr rfl) rest) (q₅.advance ':')
  obtain ⟨q₇, hq₇⟩ := nextMember_close hbs false rest q₆
  refine ⟨q₇.advance '\x7d', ?_⟩
  simp only [layout, memberText, ↓reduceIte, Bool.false_eq_true, List.append_assoc,
    List.cons_append, List.nil_append] at hq₁ hq₂ hq₃ hq₄ hq₅ hq₆ hq₇ ⊢
  simp [readExample, skipBlank_of_head (c := '\x7b') rfl, hdeep, bump_cons, fuel_eq_succ,
    readExampleMembers, hq₁, hq₂, expectColon_colon, hq₃, hq₄, hq₅, hq₆, hq₇, Failure.lift,
    Except.mapError, ExampleFields.finish, Failure.settleObject, closeObject_brace, bind,
    Except.bind, pure, Except.pure]

/-! ### Grammars -/

theorem NodeKind.ofName_label (k : NodeKind) : NodeKind.ofName k.label = .ok k := by
  cases k <;> rfl

/-- An array of encoded items decodes item by item. -/
theorem Json.toList_arr_map {α : Type} {item : Decoder α} {enc : α → Json} {xs : List α}
    (h : ∀ x ∈ xs, item (enc x) = .ok x) : toList item (.arr (xs.map enc)) = .ok xs := by
  induction xs with
  | nil => rfl
  | cons x xs ih =>
      have hrest := ih fun y hy => h y (List.mem_cons_of_mem x hy)
      simp only [toList, List.map_cons, List.mapM_cons] at hrest ⊢
      simp [h x List.mem_cons_self, hrest, bind, Except.bind, pure, Except.pure]

theorem NodeKind.toList_listJson (kinds : List NodeKind) :
    toList (NodeKind.decodeIn true) (NodeKind.listJson kinds) = .ok kinds :=
  toList_arr_map fun k _ => NodeKind.ofName_label k

/-- The grammar's two lists, kept as a problem's other members, give back the grammar. -/
theorem Grammar.ofEntries_listJson (g : Grammar) :
    Grammar.ofEntries true [("int_ops", NodeKind.listJson g.intOps),
      ("bool_ops", NodeKind.listJson g.boolOps)] = .ok g := by
  simp [Grammar.ofEntries, GrammarFields.add, GrammarFields.finish, NodeKind.toList_listJson,
    bind, Except.bind, pure, Except.pure]

/-! ### The fields of a problem

Each field is read after its member's colon and blank, at the depth a problem's members are
read at, and recorded in the fields read so far. -/

theorem readProblemField_maxDepth (depth : Nat) (f : ProblemFields) {n : Nat} (hn : n < 2 ^ 64)
    {after : List Char} (hafter : Ends after) (p : Pos) :
    ∃ q, readProblemField depth "max_depth" f ⟨' ' :: (pretty 1 (ofNat n)).toList ++ after, p⟩ =
      .ok ({ f with maxDepth := some n }, ⟨after, q⟩) := by
  have hopen : Opens (compact (ofNat n)).toList := toList_compact_ofNat hn ▸ opens_toDigits n
  obtain ⟨q, hq⟩ := Reads.blank readUsize_skipBlank (readUsize_ofNat hn) hopen after p hafter
  refine ⟨q, ?_⟩
  rw [show pretty 1 (ofNat n) = compact (ofNat n) by simp [pretty, ofNat]]
  rw [List.cons_append] at hq ⊢
  simp [readProblemField, hq, bind, Except.bind, pure, Except.pure]

/-- The grammar's lists are no fields of the problem: they are kept as they are read. -/
theorem readProblemField_kinds {depth : Nat} (hdepth : 1 < depth) (f : ProblemFields)
    {key : String} (hkey : key = "int_ops" ∨ key = "bool_ops") (kinds : List NodeKind)
    {after : List Char} (hafter : Ends after) (p : Pos) :
    ∃ q, readProblemField depth key f
        ⟨' ' :: (pretty 1 (NodeKind.listJson kinds)).toList ++ after, p⟩ =
      .ok ({ f with others := f.others.push (key, NodeKind.listJson kinds) }, ⟨after, q⟩) := by
  -- the list is a plain value, read as any value
  have hplain : Plain 1 (NodeKind.listJson kinds) := .arr fun v hv => by
    obtain ⟨k, -, rfl⟩ := List.mem_map.mp hv
    exact .str 0 k.label
  obtain ⟨q, hq⟩ := readValue_fuel_blank
    (fun fuel hfuel => readValue_pretty hplain hdepth 1 fuel hfuel) (opens_pretty_arr _ _) hafter p
  refine ⟨q, ?_⟩
  rw [List.cons_append] at hq ⊢
  rcases hkey with rfl | rfl <;>
    simp [readProblemField, hq, bind, Except.bind, pure, Except.pure]

theorem readProblemField_names {depth : Nat} (hdepth : 1 < depth) (f : ProblemFields)
    (names : List String) {after : List Char} (hafter : Ends after) (p : Pos) :
    ∃ q, readProblemField depth "variables" f
        ⟨' ' :: (pretty 1 (.arr (names.map .str))).toList ++ after, p⟩ =
      .ok ({ f with names := some names }, ⟨after, q⟩) := by
  have hseq : Reads (readSeq (fun _ c => c.readText) depth)
      (pretty 1 (.arr (names.map .str))).toList names :=
    readSeq_pretty hdepth (fun s _ => by rw [pretty_str]; exact readText_escape s)
      (fun s _ => by rw [pretty_str]; exact opens_escape s)
  obtain ⟨q, hq⟩ := Reads.blank (readSeq_skipBlank _ depth) hseq (opens_pretty_arr _ _) after p
    hafter
  rw [List.cons_append] at hq
  exact ⟨q, by simp [readProblemField, hq, bind, Except.bind, pure, Except.pure]⟩

theorem readProblemField_constants {depth : Nat} (hdepth : 1 < depth) (f : ProblemFields)
    (constants : List Int64) {after : List Char} (hafter : Ends after) (p : Pos) :
    ∃ q, readProblemField depth "constants" f
        ⟨' ' :: (pretty 1 (.arr (constants.map ofInt64))).toList ++ after, p⟩ =
      .ok ({ f with constants := some constants }, ⟨after, q⟩) := by
  have hseq : Reads (readSeq (fun _ c => c.readInt64) depth)
      (pretty 1 (.arr (constants.map ofInt64))).toList constants :=
    readSeq_pretty hdepth (fun n _ => by rw [pretty_ofInt64]; exact readInt64_ofInt64 n)
      (fun n _ => by rw [pretty_ofInt64]; exact opens_ofInt64 n)
  obtain ⟨q, hq⟩ := Reads.blank (readSeq_skipBlank _ depth) hseq (opens_pretty_arr _ _) after p
    hafter
  rw [List.cons_append] at hq
  exact ⟨q, by simp [readProblemField, hq, bind, Except.bind, pure, Except.pure]⟩

theorem readProblemField_examples {depth : Nat} (hdepth : 3 < depth) (f : ProblemFields)
    {examples : List Example}
    (hsorted : ∀ ex ∈ examples, ex.inputs.bindings.Pairwise (fun a b => a.1 < b.1))
    {after : List Char} (hafter : Ends after) (p : Pos) :
    ∃ q, readProblemField depth "examples" f
        ⟨' ' :: (pretty 1 (.arr (examples.map Example.toJson))).toList ++ after, p⟩ =
      .ok ({ f with examples := some examples }, ⟨after, q⟩) := by
  have hseq : Reads (readSeq readExample depth)
      (pretty 1 (.arr (examples.map Example.toJson))).toList examples :=
    readSeq_pretty (by omega) (fun ex hex => readExample_toJson (by omega) 2 (hsorted ex hex))
      (fun _ _ => opens_pretty_obj _ _)
  obtain ⟨q, hq⟩ := Reads.blank (readSeq_skipBlank _ depth) hseq (opens_pretty_arr _ _) after p
    hafter
  rw [List.cons_append] at hq
  exact ⟨q, by simp [readProblemField, hq, bind, Except.bind, pure, Except.pure]⟩

/-! ### Problems -/

/-- `FieldsRead depth f ms g`: the members `ms` of a problem, each a field not read before
whose value is read after its colon and blank, read one after the other take the fields read
so far from `f` to `g`. -/
inductive FieldsRead (depth : Nat) : ProblemFields → List (String × Json) → ProblemFields → Prop
  | nil (f : ProblemFields) : FieldsRead depth f [] f
  | cons {f g h : ProblemFields} {key : String} {v : Json} {ms : List (String × Json)} :
      f.has key = false →
      (∀ after p, Ends after → ∃ q,
        readProblemField depth key f ⟨' ' :: (pretty 1 v).toList ++ after, p⟩ =
          .ok (g, ⟨after, q⟩)) →
      FieldsRead depth g ms h → FieldsRead depth f ((key, v) :: ms) h

/-- The members of a problem laid out over lines, read as `FieldsRead` says, are read up to
the closing brace. The fuel has to exceed the length of what is left of the problem. -/
theorem readProblemMembers_layout {depth : Nat} {ind bs : List Char}
    (hind : ∀ ch ∈ ind, isBlank ch = true) (hbs : ∀ ch ∈ bs, isBlank ch = true)
    (after : List Char) {ms : List (String × Json)} {f g : ProblemFields}
    (hread : FieldsRead depth f ms g) :
    ∀ (fuel : Nat) (first : Bool) (p : Pos),
      (layout ind first (ms.map (memberText 1)) ++ bs).length < fuel →
      ∃ q, readProblemMembers depth fuel
          ⟨layout ind first (ms.map (memberText 1)) ++ bs ++ '\x7d' :: after, p⟩ first f =
        .ok (g, ⟨'\x7d' :: after, q⟩) := by
  induction hread with
  | nil f =>
      rintro (_ | fuel) first p hlen
      · simp at hlen
      · obtain ⟨q, hq⟩ := nextMember_close hbs first after p
        exact ⟨q, by simp [readProblemMembers, layout, hq, Failure.lift, Except.mapError, bind,
          Except.bind, pure, Except.pure]⟩
  | @cons f g h key v ms hhas hfield _ ih =>
      rintro (_ | fuel) first p hlen
      · simp at hlen
      have hrest := ends_layout hbs ind (ms.map (memberText 1)) '\x7d' (.inr rfl) after
      -- the line break and indent, the name, the colon, and the field's value after a blank
      obtain ⟨q₁, q₂, hq₁, hq₂⟩ := member_line hind first key (' ' :: (pretty 1 v).toList ++
        layout ind false (ms.map (memberText 1)) ++ bs ++ '\x7d' :: after) p
      obtain ⟨q₃, hq₃⟩ := hfield _ (q₂.advance ':') hrest
      have hlen' : (layout ind false (ms.map (memberText 1)) ++ bs).length < fuel := by
        simp only [List.map_cons, layout, List.length_append, List.length_cons] at hlen ⊢
        omega
      obtain ⟨q₄, hq₄⟩ := ih fuel false q₃ hlen'
      refine ⟨q₄, ?_⟩
      simp only [List.map_cons, layout, memberText, List.append_assoc, List.cons_append]
        at hq₁ hq₂ hq₃ hq₄ ⊢
      simp [readProblemMembers, hq₁, hq₂, hhas, expectColon_colon, hq₃, hq₄, Failure.lift,
        Except.mapError, bind, Except.bind]

/-- The members of an object that the indented printer writes at the top level, read as
`FieldsRead` says, are read up to its closing brace, the last character of the text. -/
theorem readProblemMembers_pretty {depth : Nat} {ms : List (String × Json)} {g : ProblemFields}
    (hread : FieldsRead depth {} ms g) (hne : ms ≠ []) (p : Pos) :
    ∃ rest q, (pretty 0 (.obj ms)).toList = '\x7b' :: rest ∧
      readProblemMembers depth (Cursor.fuel ⟨'\x7b' :: rest, p⟩) ⟨rest, p.advance '\x7b'⟩ true {} =
        .ok (g, ⟨['\x7d'], q⟩) := by
  rw [toList_pretty_obj 0 hne]
  simp only [Nat.zero_add]
  obtain ⟨q, hq⟩ := readProblemMembers_layout (isBlank_indent 1)
    (isBlank_lineBreak (isBlank_indent 0)) [] hread
    (Cursor.fuel ⟨'\x7b' :: (layout (indent 1).toList true (ms.map (memberText 1)) ++
      '\n' :: (indent 0).toList ++ ['\x7d']), p⟩) true (p.advance '\x7b')
    (by simp [Cursor.fuel]; omega)
  exact ⟨_, q, rfl, hq⟩

/-- A problem file reads back as the problem it was written from: every depth bound a
machine word holds, any grammar, any variable names and constants, and any examples whose
bindings are listed as a map lists them, sorted by name with one binding per name. -/
theorem Problem.parse_toText (p : Problem) (hdepth : p.maxDepth < 2 ^ 64)
    (hsorted : ∀ ex ∈ p.examples, ex.inputs.bindings.Pairwise (fun a b => a.1 < b.1)) :
    Problem.parse p.toText = .ok p := by
  obtain ⟨maxDepth, ⟨intOps, boolOps⟩, names, constants, examples⟩ := p
  dsimp only at hdepth hsorted
  -- the six members are read one after the other into the fields of the problem
  have hread : FieldsRead (Json.maxDepth - 1) {} _ _ := .cons rfl
    (fun _ q h => readProblemField_maxDepth _ _ hdepth h q) <|
    .cons rfl (fun _ q h => readProblemField_kinds (by decide) _ (.inl rfl) intOps h q) <|
    .cons rfl (fun _ q h => readProblemField_kinds (by decide) _ (.inr rfl) boolOps h q) <|
    .cons rfl (fun _ q h => readProblemField_names (by decide) _ names h q) <|
    .cons rfl (fun _ q h => readProblemField_constants (by decide) _ constants h q) <|
    .cons rfl (fun _ q h => readProblemField_examples (by decide) _ hsorted h q) <|
    .nil _
  obtain ⟨rest, q, htext, hq⟩ := readProblemMembers_pretty hread (by simp) Pos.start
  simp only [Problem.parse, Problem.toText, Problem.toJson, Cursor.ofString]
  rw [htext]
  simp [skipBlank_of_head (c := '\x7b') rfl, bump_cons, hq, Failure.settleObject,
    closeObject_brace, ProblemFields.finish, Grammar.ofEntries_listJson ⟨intOps, boolOps⟩,
    finish_nil, bind, Except.bind, pure, Except.pure]

end ExprSynth
