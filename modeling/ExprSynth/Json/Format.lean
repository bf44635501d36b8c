import ExprSynth.Json.Print
import ExprSynth.Json.Reader

/-!
JSON text formats. A format writes values as text and reads texts back as values. What a
program needs of the format its files are kept in is that the values it writes come back:
strings, escapes included, integers in the 64-bit ranges and truth values, and arrays and
objects of those, nested below the reading limit. `Json.standard` writes indented text and
reads it with `Json.read`.
-/

namespace ExprSynth.Json

/-- The values a format gives back as it wrote them: truth values, strings, integers that
fit 64 unsigned bits or are negative and fit 64 signed bits, and arrays and objects of such
values, the keys of an object distinct, with at most `depth` levels of arrays and
objects. -/
inductive Plain : Nat → Json → Prop
  | bool (depth : Nat) (b : Bool) : Plain depth (.bool b)
  | str (depth : Nat) (s : String) : Plain depth (.str s)
  | unsigned (depth : Nat) (n : UInt64) : Plain depth (.num (.unsigned n))
  | signed (depth : Nat) {n : Int64} (h : n < 0) : Plain depth (.num (.signed n))
  | arr {depth : Nat} {items : List Json} (h : ∀ v ∈ items, Plain depth v) :
      Plain (depth + 1) (.arr items)
  | obj {depth : Nat} {members : List (String × Json)} (hkeys : (members.map Prod.fst).Nodup)
      (h : ∀ m ∈ members, Plain depth m.2) : Plain (depth + 1) (.obj members)

/-- A way to write JSON values as text and to read a text back as a value. -/
structure Format where
  write : Json → String
  read : String → Except ReadError Json

namespace Format

end Format

/-- Indented text, read by `read`: the format of problem files. -/
def standard : Format :=
  ⟨pretty 0, read⟩

end ExprSynth.Json
