import ExprSynth.Json.Decode

/-!
Writing JSON: on one line without blanks, or indented by two blanks per level with one
item or member per line. Strings escape quotes, backslashes and control characters and
keep every other character as it is.
-/

namespace ExprSynth.Json

/-- The four lowercase hexadecimal digits of a character below `0x10000`. -/
def hex4 (n : Nat) : String :=
  let d (k : Nat) : Char := (Nat.toDigits 16 ((n / Nat.pow 16 k) % 16)).headD '0'
  String.ofList [d 3, d 2, d 1, d 0]

/-- One character inside a JSON string: quotes, backslashes and control characters
escaped, everything else as it is. -/
def escapeChar (c : Char) : String :=
  match c with
  | '"' => "\\\""
  | '\\' => "\\\\"
  | '\x08' => "\\b"
  | '\x0c' => "\\f"
  | '\n' => "\\n"
  | '\r' => "\\r"
  | '\t' => "\\t"
  | c => if c.toNat < 0x20 then "\\u" ++ hex4 c.toNat else String.singleton c

/-- A string as a JSON string literal. -/
def escape (s : String) : String :=
  "\"" ++ String.join (s.toList.map escapeChar) ++ "\""

/-- The text of a number. -/
def Number.text : Number → String
  | .unsigned n => toString n.toNat
  | .signed n => toString n.toInt
  | .float bits => Decimal.textOfBits bits

mutual

/-- The value on one line, without blanks. -/
def compact : Json → String
  | .null => "null"
  | .bool b => if b then "true" else "false"
  | .num n => n.text
  | .str s => escape s
  | .arr items => "[" ++ ",".intercalate (compactItems items) ++ "]"
  | .obj members => "\x7b" ++ ",".intercalate (compactMembers members) ++ "\x7d"

/-- `compact` on every item. -/
def compactItems : List Json → List String
  | [] => []
  | v :: rest => compact v :: compactItems rest

/-- Every member as `"key":value`. -/
def compactMembers : List (String × Json) → List String
  | [] => []
  | (k, v) :: rest => (escape k ++ ":" ++ compact v) :: compactMembers rest

end

/-- Two blanks per level. -/
def indent (level : Nat) : String :=
  String.ofList (List.replicate (2 * level) ' ')

mutual

/-- The value over several lines, each item and member on a line of its own indented by
two blanks per level, `level` being the level of the value's first line. Empty arrays and
objects stay on one line. -/
def pretty (level : Nat) : Json → String
  | .arr [] => "[]"
  | .obj [] => "\x7b\x7d"
  | .arr items =>
      "[\n" ++ ",\n".intercalate (prettyItems (level + 1) items) ++ "\n" ++ indent level ++ "]"
  | .obj members =>
      "\x7b\n" ++ ",\n".intercalate (prettyMembers (level + 1) members) ++ "\n" ++
        indent level ++ "\x7d"
  | v => compact v

/-- Every item on its own line at `level`. -/
def prettyItems (level : Nat) : List Json → List String
  | [] => []
  | v :: rest => (indent level ++ pretty level v) :: prettyItems level rest

/-- Every member on its own line at `level`, as `"key": value`. -/
def prettyMembers (level : Nat) : List (String × Json) → List String
  | [] => []
  | (k, v) :: rest => (indent level ++ escape k ++ ": " ++ pretty level v) :: prettyMembers level rest

end

end ExprSynth.Json
