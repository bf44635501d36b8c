import Mathlib
import ExprSynth.Expr.Typing

/-! Reading printed expressions back. The text of an expression is fully parenthesised and
shows a variable by its bare name, whatever family it is read at. When every name is a word
of ASCII letters, digits and `_` that opens with no digit and is not `false`, that family is
all the text loses: two expressions print alike exactly when they agree once their variables
are all read at the integers.

The proof is unique readability. A text followed by anything that does not continue a word
splits in one way only: the first character tells a parenthesised node, a number and a word
apart, a word or a number runs to the first character that cannot continue it, the second
character of a node tells a negation and a conditional from a binary node (a left operand
named `if` is followed by an operator, never by the blank of `if `), and every operand is
followed by an operator symbol, a blank or a closing parenthesis. -/
namespace ExprSynth

/-! ### Words -/

/-- A character that continues a word of the text: an ASCII letter, a digit or `_`. -/
def wordChar (ch : Char) : Bool :=
  ch.isAlphanum || ch == '_'

/-- Text that does not continue a word: empty, or opening with another character. -/
def Stops (s : List Char) : Prop :=
  ∀ ch ∈ s.head?, wordChar ch = false

@[simp] theorem stops_nil : Stops [] := by
  simp [Stops]

theorem stops_cons {ch : Char} (h : wordChar ch = false) (s : List Char) : Stops (ch :: s) := by
  simpa [Stops] using h

theorem stops_paren (s : List Char) : Stops (')' :: s) :=
  stops_cons (by decide) s

theorem stops_blank (s : List Char) : Stops (' ' :: s) :=
  stops_cons (by decide) s

theorem wordChar_of_isDigit {ch : Char} (h : ch.isDigit = true) : wordChar ch = true := by
  simp [wordChar, Char.isAlphanum, h]

/-- A word followed by text that does not continue it is split off in one way only. -/
theorem eq_of_word_append_eq {a b s t : List Char} (ha : ∀ ch ∈ a, wordChar ch = true)
    (hb : ∀ ch ∈ b, wordChar ch = true) (hs : Stops s) (ht : Stops t) (h : a ++ s = b ++ t) :
    a = b ∧ s = t := by
  induction a generalizing b with
  | nil =>
      cases b with
      | nil => exact ⟨rfl, h⟩
      | cons ch b =>
          -- `s` would open with the word character `ch`
          subst h
          exact absurd (hs ch (by simp)) (by simp [hb ch (by simp)])
  | cons ch a ih =>
      cases b with
      | nil =>
          subst h
          exact absurd (ht ch (by simp)) (by simp [ha ch (by simp)])
      | cons ch' b =>
          simp only [List.cons_append, List.cons.injEq] at h
          obtain ⟨rfl, hrest⟩ := h
          obtain ⟨rfl, rfl⟩ := ih (fun c hc => ha c (by simp [hc])) (fun c hc => hb c (by simp [hc]))
            hrest
          exact ⟨rfl, rfl⟩

/-! ### Names -/

/-- A variable name that the text shows as a word of its own: non-empty, of ASCII letters,
digits and `_`, opening with no digit, and not the literal `false`. -/
structure WordName (name : String) : Prop where
  nonempty : name.toList ≠ []
  word : ∀ ch ∈ name.toList, wordChar ch = true
  notDigit : ∀ ch ∈ name.toList.head?, ch.isDigit = false
  notFalse : name ≠ "false"

/-- Every variable of an expression has a name that reads as a word. -/
def Expr.WordNames (e : Expr) : Prop :=
  ∀ name ∈ e.varNames, WordName name

section WordNames

variable {op : BinOp} {l r e c t f : Expr}

theorem Expr.WordNames.left (h : (Expr.binop op l r).WordNames) : l.WordNames :=
  fun n hn => h n (by simp [Expr.varNames, hn])

theorem Expr.WordNames.right (h : (Expr.binop op l r).WordNames) : r.WordNames :=
  fun n hn => h n (by simp [Expr.varNames, hn])

theorem Expr.WordNames.operand (h : (Expr.not e).WordNames) : e.WordNames :=
  fun n hn => h n (by simpa [Expr.varNames] using hn)

theorem Expr.WordNames.cond (h : (Expr.ite c t f).WordNames) : c.WordNames :=
  fun n hn => h n (by simp [Expr.varNames, hn])

theorem Expr.WordNames.yes (h : (Expr.ite c t f).WordNames) : t.WordNames :=
  fun n hn => h n (by simp [Expr.varNames, hn])

theorem Expr.WordNames.no (h : (Expr.ite c t f).WordNames) : f.WordNames :=
  fun n hn => h n (by simp [Expr.varNames, hn])

theorem Expr.WordNames.name {name : String} {ty : Ty} (h : (Expr.var name ty).WordNames) :
    WordName name :=
  h name (by simp [Expr.varNames])

end WordNames

/-! ### Families erased -/

/-- The expression with every variable read at the integers: all that its text shows. -/
def Expr.eraseSorts : Expr → Expr
  | .const n => .const n
  | .var name _ => .var name .int
  | .falseLit => .falseLit
  | .binop op l r => .binop op l.eraseSorts r.eraseSorts
  | .not e => .not e.eraseSorts
  | .ite c t f => .ite c.eraseSorts t.eraseSorts f.eraseSorts

theorem Expr.render_eraseSorts (e : Expr) : e.eraseSorts.render = e.render := by
  induction e with
  | const n => rfl
  | var name ty => rfl
  | falseLit => rfl
  | binop op l r ihl ihr => simp [eraseSorts, render, ihl, ihr]
  | not e ih => simp [eraseSorts, render, ih]
  | ite c t f ihc iht ihf => simp [eraseSorts, render, ihc, iht, ihf]

/-! ### The text of each node -/

section Text

variable (s : List Char)

theorem Expr.render_binop_append (op : BinOp) (l r : Expr) :
    (Expr.binop op l r).render.toList ++ s =
      '(' :: (l.render.toList ++ (op.symbol.toList ++ (r.render.toList ++ ')' :: s))) := by
  simp [render, String.toList_append]

theorem Expr.render_not_append (e : Expr) :
    (Expr.not e).render.toList ++ s = '(' :: '!' :: (e.render.toList ++ ')' :: s) := by
  simp [render, String.toList_append]

theorem Expr.render_ite_append (c t f : Expr) :
    (Expr.ite c t f).render.toList ++ s =
      '(' :: 'i' :: 'f' :: ' ' :: (c.render.toList ++ ' ' :: 't' :: 'h' :: 'e' :: 'n' :: ' ' ::
        (t.render.toList ++ ' ' :: 'e' :: 'l' :: 's' :: 'e' :: ' ' ::
          (f.render.toList ++ ')' :: s))) := by
  simp [render, String.toList_append]

end Text

/-! ### Numbers -/

theorem Int64.lt_zero_iff_toInt (n : Int64) : n < 0 ↔ n.toInt < 0 := by
  simpa using @Int64.lt_iff_toInt_lt n 0

/-- The text of an integer: a minus sign below zero, then the digits of its magnitude. -/
theorem toList_intText (n : Int64) :
    (Value.intText n).toList = (if n < 0 then ['-'] else []) ++ Nat.toDigits 10 n.toInt.natAbs := by
  have hlt := Int64.lt_zero_iff_toInt n
  unfold Value.intText
  rw [show toString n.toInt = n.toInt.repr from rfl]
  cases h : n.toInt with
  | ofNat m =>
      have : ¬n < 0 := by rw [hlt, h]; exact Int.not_lt.mpr (Int.natCast_nonneg m)
      simp [Int.repr, Nat.toList_repr, this]
  | negSucc m =>
      have : n < 0 := by rw [hlt, h]; exact Int.negSucc_lt_zero m
      simp [Int.repr, Nat.toList_repr, this]

theorem digit_of_mem_toDigits {ch : Char} {m : Nat} (h : ch ∈ Nat.toDigits 10 m) :
    ch.isDigit = true :=
  Nat.isDigit_of_mem_toDigits (by decide) (by decide) h

theorem exists_toDigits_eq_cons (m : Nat) :
    ∃ d ds, Nat.toDigits 10 m = d :: ds ∧ d.isDigit = true := by
  obtain ⟨d, ds, h⟩ := List.exists_cons_of_ne_nil (Nat.toDigits_ne_nil (n := m))
  exact ⟨d, ds, h, digit_of_mem_toDigits (h ▸ List.mem_cons_self)⟩

/-- The digits of a magnitude, followed by text that does not continue a word, are read back
in one way only. -/
theorem toDigits_append_inj {m₁ m₂ : Nat} {s₁ s₂ : List Char} (hs₁ : Stops s₁) (hs₂ : Stops s₂)
    (h : Nat.toDigits 10 m₁ ++ s₁ = Nat.toDigits 10 m₂ ++ s₂) : m₁ = m₂ ∧ s₁ = s₂ := by
  obtain ⟨hdigits, hs⟩ := eq_of_word_append_eq
    (fun _ hc => wordChar_of_isDigit (digit_of_mem_toDigits hc))
    (fun _ hc => wordChar_of_isDigit (digit_of_mem_toDigits hc)) hs₁ hs₂ h
  refine ⟨?_, hs⟩
  rw [← Nat.ofDigitChars_ten_toDigits (n := m₁), hdigits, Nat.ofDigitChars_ten_toDigits]

theorem toDigits_append_ne_minus (m : Nat) (s t : List Char) :
    Nat.toDigits 10 m ++ s ≠ '-' :: t := by
  obtain ⟨d, ds, hds, hd⟩ := exists_toDigits_eq_cons m
  rw [hds]
  rintro ⟨⟩
  exact absurd hd (by decide)

/-- The text of an integer, followed by text that does not continue a word, is read back in one
way only: the minus sign says the sign, and the digits the magnitude. -/
theorem intText_append_inj {n₁ n₂ : Int64} {s₁ s₂ : List Char} (hs₁ : Stops s₁) (hs₂ : Stops s₂)
    (h : (Value.intText n₁).toList ++ s₁ = (Value.intText n₂).toList ++ s₂) :
    n₁ = n₂ ∧ s₁ = s₂ := by
  simp only [toList_intText, Int64.lt_zero_iff_toInt] at h
  -- the signs agree, and so do the magnitudes
  by_cases h₁ : n₁.toInt < 0 <;> by_cases h₂ : n₂.toInt < 0 <;> simp only [h₁, h₂, if_true,
    if_false, List.nil_append, List.cons_append, List.cons.injEq, true_and] at h
  · obtain ⟨hm, rfl⟩ := toDigits_append_inj hs₁ hs₂ h
    exact ⟨Int64.toInt_inj.mp (by omega), rfl⟩
  · exact absurd h.symm (toDigits_append_ne_minus _ _ _)
  · exact absurd h (toDigits_append_ne_minus _ _ _)
  · obtain ⟨hm, rfl⟩ := toDigits_append_inj hs₁ hs₂ h
    exact ⟨Int64.toInt_inj.mp (by omega), rfl⟩

/-! ### The first character -/

/-- What the first character of a text opens: a parenthesised node, a number or a word. -/
inductive Lead where
  | paren
  | number
  | word
  deriving DecidableEq, Repr

/-- What a character opens, if it can open an expression's text. -/
def Lead.of? (ch : Char) : Option Lead :=
  if ch = '(' then some .paren
  else if ch = '-' ∨ ch.isDigit then some .number
  else if wordChar ch then some .word
  else none

/-- What the text of an expression opens with. -/
def Expr.lead : Expr → Lead
  | .const _ => .number
  | .var .. | .falseLit => .word
  | .binop .. | .not _ | .ite .. => .paren

theorem Lead.of?_digit {ch : Char} (h : ch.isDigit = true) : Lead.of? ch = some .number := by
  have hparen : ch ≠ '(' := by rintro rfl; exact absurd h (by decide)
  simp [of?, hparen, h]

/-- The text of an expression is never empty, and its first character says which of a node,
a number and a word it is. -/
theorem Expr.render_head (e : Expr) (h : e.WordNames) :
    ∃ ch rest, e.render.toList = ch :: rest ∧ Lead.of? ch = some e.lead := by
  cases e with
  | const n =>
      rw [render, toList_intText]
      obtain ⟨d, ds, hds, hd⟩ := exists_toDigits_eq_cons n.toInt.natAbs
      split
      · exact ⟨'-', _, rfl, rfl⟩
      · exact ⟨d, ds, by simp [hds], Lead.of?_digit hd⟩
  | var name ty =>
      have hname := h.name
      obtain ⟨ch, rest, hch⟩ := List.exists_cons_of_ne_nil hname.nonempty
      have hword : wordChar ch = true := hname.word ch (by simp [hch])
      have hdigit : ch.isDigit = false := hname.notDigit ch (by simp [hch])
      -- a word character is neither a parenthesis nor a minus sign
      have hparen : ch ≠ '(' := by rintro rfl; exact absurd hword (by decide)
      have hminus : ch ≠ '-' := by rintro rfl; exact absurd hword (by decide)
      exact ⟨ch, rest, by simpa [render] using hch, by simp [Lead.of?, hparen, hminus, hdigit, hword, lead]⟩
  | falseLit => exact ⟨'f', ['a', 'l', 's', 'e'], by simp [render], by decide⟩
  | binop op l r => exact ⟨'(', _, by simpa using render_binop_append [] op l r, rfl⟩
  | not e => exact ⟨'(', _, by simpa using render_not_append [] e, rfl⟩
  | ite c t f => exact ⟨'(', _, by simpa using render_ite_append [] c t f, rfl⟩

theorem Expr.lead_eq_of_render_append {e₁ e₂ : Expr} (h₁ : e₁.WordNames) (h₂ : e₂.WordNames)
    {s₁ s₂ : List Char} (h : e₁.render.toList ++ s₁ = e₂.render.toList ++ s₂) :
    e₁.lead = e₂.lead := by
  obtain ⟨ch₁, rest₁, hr₁, hl₁⟩ := e₁.render_head h₁
  obtain ⟨ch₂, rest₂, hr₂, hl₂⟩ := e₂.render_head h₂
  rw [hr₁, hr₂, List.cons_append, List.cons_append] at h
  obtain ⟨rfl, -⟩ := List.cons_eq_cons.mp h
  exact Option.some.inj (hl₁.symm.trans hl₂)

/-- No expression's text opens with `!`, the second character of a negation. -/
theorem Expr.render_append_ne_bang (e : Expr) (h : e.WordNames) (s t : List Char) :
    e.render.toList ++ s ≠ '!' :: t := by
  obtain ⟨ch, rest, hr, hl⟩ := e.render_head h
  rw [hr, List.cons_append]
  rintro ⟨⟩
  have hbang : Lead.of? '!' = none := by decide
  rw [hbang] at hl
  cases hl

/-! ### Operator symbols -/

theorem BinOp.stops_symbol_append (op : BinOp) (x : List Char) : Stops (op.symbol.toList ++ x) := by
  cases op <;> simp [symbol, Stops] <;> decide

theorem BinOp.symbol_append_inj {op₁ op₂ : BinOp} {x y : List Char}
    (h : op₁.symbol.toList ++ x = op₂.symbol.toList ++ y) : op₁ = op₂ ∧ x = y := by
  cases op₁ <;> cases op₂ <;> simp_all [symbol]

theorem BinOp.symbol_append_ne_blank (op : BinOp) (x y : List Char) :
    op.symbol.toList ++ x ≠ ' ' :: y := by
  cases op <;> simp [symbol]

/-- A left operand followed by its operator never reads as the opening `if ` of a conditional:
only a variable named `if` prints as `if`, and an operator symbol, not a blank, follows it. -/
theorem Expr.render_symbol_ne_if (e : Expr) (h : e.WordNames) (op : BinOp) (x y : List Char) :
    e.render.toList ++ (op.symbol.toList ++ x) ≠ 'i' :: 'f' :: ' ' :: y := by
  intro hif
  have hlead : e.lead = .word := by
    obtain ⟨ch, rest, hr, hl⟩ := e.render_head h
    rw [hr, List.cons_append] at hif
    obtain ⟨rfl, -⟩ := List.cons_eq_cons.mp hif
    exact Option.some.inj (hl.symm.trans (by decide))
  cases e
  case var name ty =>
    have hsplit := eq_of_word_append_eq (b := ['i', 'f']) h.name.word (by simp [wordChar])
      (op.stops_symbol_append x) (stops_blank y)
      (by simpa [render] using hif)
    exact op.symbol_append_ne_blank x y hsplit.2
  case falseLit => simp [render] at hif
  all_goals cases hlead

/-! ### Unique readability -/

/-- Unique readability: the text of an expression followed by text that does not continue a
word determines the expression, up to the families its variables are read at, and what
follows it. Induction on the first expression; the second is taken apart by its first
characters. -/
theorem Expr.eraseSorts_eq_of_render_append {e₁ : Expr} (h₁ : e₁.WordNames) :
    ∀ {e₂ : Expr}, e₂.WordNames → ∀ {s₁ s₂ : List Char}, Stops s₁ → Stops s₂ →
      e₁.render.toList ++ s₁ = e₂.render.toList ++ s₂ → e₁.eraseSorts = e₂.eraseSorts ∧ s₁ = s₂ := by
  induction e₁ with
  | const n =>
      intro e₂ h₂ s₁ s₂ hs₁ hs₂ h
      cases e₂
      case const m =>
        obtain ⟨rfl, rfl⟩ := intText_append_inj hs₁ hs₂ h
        exact ⟨rfl, rfl⟩
      all_goals exact absurd (lead_eq_of_render_append h₁ h₂ h) (by simp [lead])
  | var name ty =>
      intro e₂ h₂ s₁ s₂ hs₁ hs₂ h
      cases e₂
      case var name' ty' =>
        obtain ⟨hname, rfl⟩ := eq_of_word_append_eq h₁.name.word h₂.name.word hs₁ hs₂ h
        exact ⟨by simp [eraseSorts, String.toList_inj.mp hname], rfl⟩
      case falseLit =>
        -- a name runs as far as `false` does, so it would be `false`
        obtain ⟨hname, -⟩ := eq_of_word_append_eq (b := "false".toList) h₁.name.word
          (by simp [wordChar]) hs₁ hs₂ h
        exact absurd (String.toList_inj.mp hname) h₁.name.notFalse
      all_goals exact absurd (lead_eq_of_render_append h₁ h₂ h) (by simp [lead])
  | falseLit =>
      intro e₂ h₂ s₁ s₂ hs₁ hs₂ h
      cases e₂
      case falseLit => exact ⟨rfl, List.append_cancel_left h⟩
      case var name' ty' =>
        obtain ⟨hname, -⟩ := eq_of_word_append_eq (a := "false".toList) (by simp [wordChar])
          h₂.name.word hs₁ hs₂ h
        exact absurd (String.toList_inj.mp hname).symm h₂.name.notFalse
      all_goals exact absurd (lead_eq_of_render_append h₁ h₂ h) (by simp [lead])
  | binop op l r ihl ihr =>
      intro e₂ h₂ s₁ s₂ hs₁ hs₂ h
      cases e₂
      case binop op' l' r' =>
        rw [render_binop_append, render_binop_append, List.cons.injEq] at h
        obtain ⟨hl, hsym⟩ := ihl h₁.left h₂.left (op.stops_symbol_append _)
          (op'.stops_symbol_append _) h.2
        obtain ⟨rfl, hright⟩ := BinOp.symbol_append_inj hsym
        obtain ⟨hr, hclose⟩ := ihr h₁.right h₂.right (stops_paren s₁) (stops_paren s₂) hright
        exact ⟨by simp [eraseSorts, hl, hr], List.cons_injective hclose⟩
      case not e' =>
        rw [render_binop_append, render_not_append, List.cons.injEq] at h
        exact absurd h.2 (l.render_append_ne_bang h₁.left _ _)
      case ite c' t' f' =>
        rw [render_binop_append, render_ite_append, List.cons.injEq] at h
        exact absurd h.2 (l.render_symbol_ne_if h₁.left op _ _)
      all_goals exact absurd (lead_eq_of_render_append h₁ h₂ h) (by simp [lead])
  | not e ih =>
      intro e₂ h₂ s₁ s₂ hs₁ hs₂ h
      cases e₂
      case not e' =>
        rw [render_not_append, render_not_append] at h
        simp only [List.cons.injEq, true_and] at h
        obtain ⟨he, hclose⟩ := ih h₁.operand h₂.operand (stops_paren s₁) (stops_paren s₂) h
        exact ⟨by simp [eraseSorts, he], List.cons_injective hclose⟩
      case binop op' l' r' =>
        rw [render_not_append, render_binop_append, List.cons.injEq] at h
        exact absurd h.2.symm (l'.render_append_ne_bang h₂.left _ _)
      case ite c' t' f' =>
        rw [render_not_append, render_ite_append] at h
        simp at h
      all_goals exact absurd (lead_eq_of_render_append h₁ h₂ h) (by simp [lead])
  | ite c t f ihc iht ihf =>
      intro e₂ h₂ s₁ s₂ hs₁ hs₂ h
      cases e₂
      case ite c' t' f' =>
        rw [render_ite_append, render_ite_append] at h
        simp only [List.cons.injEq, true_and] at h
        obtain ⟨hc, hthen⟩ := ihc h₁.cond h₂.cond (stops_blank _) (stops_blank _) h
        simp only [List.cons.injEq, true_and] at hthen
        obtain ⟨ht, helse⟩ := iht h₁.yes h₂.yes (stops_blank _) (stops_blank _) hthen
        simp only [List.cons.injEq, true_and] at helse
        obtain ⟨hf, hclose⟩ := ihf h₁.no h₂.no (stops_paren s₁) (stops_paren s₂) helse
        exact ⟨by simp [eraseSorts, hc, ht, hf], List.cons_injective hclose⟩
      case binop op' l' r' =>
        rw [render_ite_append, render_binop_append, List.cons.injEq] at h
        exact absurd h.2.symm (l'.render_symbol_ne_if h₂.left op' _ _)
      case not e' =>
        rw [render_ite_append, render_not_append] at h
        simp at h
      all_goals exact absurd (lead_eq_of_render_append h₁ h₂ h) (by simp [lead])

/-- Printing is unambiguous. For expressions whose variable names are words of ASCII letters,
digits and `_` that open with no digit and are not `false`, two texts are equal exactly when
the expressions are equal once their variables are all read at the integers. -/
theorem Expr.render_eq_iff_eraseSorts_eq {e₁ e₂ : Expr} (h₁ : e₁.WordNames) (h₂ : e₂.WordNames) :
    e₁.render = e₂.render ↔ e₁.eraseSorts = e₂.eraseSorts := by
  constructor
  · intro h
    have htext : e₁.render.toList ++ [] = e₂.render.toList ++ [] := by rw [h]
    exact (eraseSorts_eq_of_render_append h₁ h₂ stops_nil stops_nil htext).1
  · intro h
    rw [← e₁.render_eraseSorts, h, e₂.render_eraseSorts]

/-- Names that are keywords of the text do not confuse it: `(if if then (then+-1) else else)`
prints the same whether `if` is read as a truth value or as an integer, and the two
expressions agree once their variables are read at the integers. -/
theorem render_eq_iff_keyword_names :
    let e₁ : Expr :=
      .ite (.var "if" .bool) (.binop .plus (.var "then" .int) (.const (-1))) (.var "else" .int)
    let e₂ : Expr :=
      .ite (.var "if" .int) (.binop .plus (.var "then" .int) (.const (-1))) (.var "else" .int)
    e₁.WordNames ∧ e₂.WordNames ∧ (e₁.render = e₂.render ↔ e₁.eraseSorts = e₂.eraseSorts) := by
  intro e₁ e₂
  have hwords : ∀ name ∈ ["if", "then", "else"], WordName name := by
    intro name hname
    simp only [List.mem_cons, List.not_mem_nil, or_false] at hname
    rcases hname with rfl | rfl | rfl <;>
      exact ⟨by simp, by simp [wordChar], by simp, by decide⟩
  have h₁ : e₁.WordNames := fun name hname => hwords name (by simpa [e₁, Expr.varNames] using hname)
  have h₂ : e₂.WordNames := fun name hname => hwords name (by simpa [e₂, Expr.varNames] using hname)
  exact ⟨h₁, h₂, Expr.render_eq_iff_eraseSorts_eq h₁ h₂⟩

end ExprSynth
