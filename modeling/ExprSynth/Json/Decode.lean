import ExprSynth.Json.Value
import ExprSynth.Decimal.Layout
import ExprSynth.Text.Printable
import ExprSynth.Text.GraphemeExtend

/-!
Decoding values already read, and the texts of decoding errors: how an unexpected value
is named (`integer` with its digits, `floating point` with its shortest text, a string
quoted with marks and unprintable characters escaped), and the messages for a wrong
kind, a value out of range, a wrong length, a missing or repeated field and an unknown
name.
-/

namespace ExprSynth.Json

/-- Lowercase hexadecimal digits of `n`, without leading zeros. -/
def hexText (n : Nat) : String :=
  String.ofList (Nat.toDigits 16 n)

/-- One character of a quoted string: the common controls, the backslash and the double
quote by their short escapes; a character that extends the grapheme before it, or that is
not printable, by its code point in hexadecimal; any other character as itself. Marks are
escaped even when printable, so that none of them is drawn over the quote or the
character before it. -/
def quoteChar (c : Char) : String :=
  match c with
  | '\x00' => "\\0"
  | '\t' => "\\t"
  | '\r' => "\\r"
  | '\n' => "\\n"
  | '\\' => "\\\\"
  | '"' => "\\\""
  | c =>
      if Text.isGraphemeExtend c || !Text.isPrintable c then
        "\\u\x7b" ++ hexText c.toNat ++ "\x7d"
      else String.singleton c

/-- A string in double quotes, each character quoted by `quoteChar`. -/
def quote (s : String) : String :=
  "\"" ++ String.join (s.toList.map quoteChar) ++ "\""

/-- How a number is named when it is not what a decoder expects. -/
def Number.unexpected : Number → String
  | .unsigned n => "integer `" ++ toString n.toNat ++ "`"
  | .signed n => "integer `" ++ toString n.toInt ++ "`"
  | .float bits => "floating point `" ++ Decimal.textOfBits bits ++ "`"

/-- How a value is named when it is not what a decoder expects. -/
def unexpected : Json → String
  | .null => "null"
  | .bool b => "boolean `" ++ (if b then "true" else "false") ++ "`"
  | .num n => n.unexpected
  | .str s => "string " ++ quote s
  | .arr _ => "sequence"
  | .obj _ => "map"

/-- A value of the wrong kind. -/
def invalidType (found expected : String) : String :=
  "invalid type: " ++ found ++ ", expected " ++ expected

/-- A value of the right kind that is out of range. -/
def invalidValue (found expected : String) : String :=
  "invalid value: " ++ found ++ ", expected " ++ expected

/-- A sequence of the wrong length. -/
def invalidLength (length : Nat) (expected : String) : String :=
  "invalid length " ++ toString length ++ ", expected " ++ expected

/-- A field the value lacks. -/
def missingField (name : String) : String :=
  "missing field `" ++ name ++ "`"

/-- A field given twice. -/
def duplicateField (name : String) : String :=
  "duplicate field `" ++ name ++ "`"

/-- The names of the cases, each in backquotes, separated by commas. -/
def backquoted (names : List String) : String :=
  ", ".intercalate (names.map fun n => "`" ++ n ++ "`")

/-- A name that is none of the cases of an enumeration. -/
def unknownVariant (name : String) (cases : List String) : String :=
  "unknown variant `" ++ name ++ "`, expected " ++
    match cases with
    | [] => "there are no variants"
    | [a] => "`" ++ a ++ "`"
    | [a, b] => "`" ++ a ++ "` or `" ++ b ++ "`"
    | _ => "one of " ++ backquoted cases

/-- A decoder of values already read: the error is a data error without a place. -/
abbrev Decoder (α : Type) := Json → Except String α

/-- A 64-bit signed integer. -/
def toInt64 : Decoder Int64
  | .num (.signed n) => .ok n
  | .num (.unsigned n) =>
      if n.toNat < Nat.pow 2 63 then .ok n.toNat.toInt64
      else .error (invalidValue (Number.unexpected (.unsigned n)) "i64")
  | v => .error (invalidType (unexpected v) "i64")

/-- A machine-sized unsigned integer, 64 bits wide. -/
def toUsize : Decoder Nat
  | .num (.unsigned n) => .ok n.toNat
  | .num (.signed n) => .error (invalidValue (Number.unexpected (.signed n)) "usize")
  | v => .error (invalidType (unexpected v) "usize")

/-- A string. -/
def toText : Decoder String
  | .str s => .ok s
  | v => .error (invalidType (unexpected v) "a string")

/-- A sequence, each item decoded in order; the first failing item gives the error. -/
def toList (item : Decoder α) : Decoder (List α)
  | .arr items => items.mapM item
  | v => .error (invalidType (unexpected v) "a sequence")

/-- A map with string keys, each value decoded in key order. -/
def toMembers (item : Decoder α) : Decoder (List (String × α))
  | .obj members => members.mapM fun (k, v) => do pure (k, ← item v)
  | v => .error (invalidType (unexpected v) "a map")

end ExprSynth.Json
