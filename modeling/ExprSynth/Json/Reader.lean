import ExprSynth.Json.Value
import ExprSynth.Decimal.Binary

namespace ExprSynth.Json

/-- A place in a text: the line, counted from 1, and the number of bytes before it on
its line. -/
structure Pos where
  line : Nat
  column : Nat
  deriving DecidableEq, Repr, Inhabited

namespace Pos

/-- The start of a text. -/
def start : Pos := ⟨1, 0⟩

/-- The place after the character `c`. -/
def advance (p : Pos) (c : Char) : Pos :=
  if c = '\n' then ⟨p.line + 1, 0⟩ else ⟨p.line, p.column + c.utf8Size⟩

/-- The place one byte after the start of `c`: inside `c` when it takes more bytes. -/
def advanceByte (p : Pos) (c : Char) : Pos :=
  if c = '\n' then ⟨p.line + 1, 0⟩ else ⟨p.line, p.column + 1⟩

/-- The place `k` bytes further into `rest`, which starts at `p`. -/
def advanceBytes (p : Pos) : List Char → Nat → Pos
  | _, 0 => p
  | [], _ => p
  | c :: rest, k + 1 =>
      if c.utf8Size ≤ k + 1 then advanceBytes (p.advance c) rest (k + 1 - c.utf8Size)
      else ⟨p.line, p.column + (k + 1)⟩

end Pos

/-- What went wrong while reading a text. A `message` is a data error: the text is
well formed but does not describe the expected value. -/
inductive Fault where
  | message (text : String)
  | eofList
  | eofObject
  | eofString
  | eofValue
  | expectedColon
  | expectedListCommaOrEnd
  | expectedObjectCommaOrEnd
  | expectedIdent
  | expectedValue
  | invalidEscape
  | invalidNumber
  | numberOutOfRange
  | controlCharacter
  | keyMustBeString
  | loneLeadingSurrogate
  | trailingComma
  | trailingCharacters
  | unexpectedEndOfHexEscape
  | recursionLimit
  deriving DecidableEq, Repr, Inhabited

/-- How a reading failure is classified: the text ended too early, it is not well formed,
or it describes the wrong data. -/
inductive Category where
  | truncated
  | malformed
  | data
  deriving DecidableEq, Repr, Inhabited

namespace Fault

/-- The text of a fault. -/
def text : Fault → String
  | .message t => t
  | .eofList => "EOF while parsing a list"
  | .eofObject => "EOF while parsing an object"
  | .eofString => "EOF while parsing a string"
  | .eofValue => "EOF while parsing a value"
  | .expectedColon => "expected `:`"
  | .expectedListCommaOrEnd => "expected `,` or `]`"
  | .expectedObjectCommaOrEnd => "expected `,` or `\x7d`"
  | .expectedIdent => "expected ident"
  | .expectedValue => "expected value"
  | .invalidEscape => "invalid escape"
  | .invalidNumber => "invalid number"
  | .numberOutOfRange => "number out of range"
  | .controlCharacter => "control character (\\u0000-\\u001F) found while parsing a string"
  | .keyMustBeString => "key must be a string"
  | .loneLeadingSurrogate => "lone leading surrogate in hex escape"
  | .trailingComma => "trailing comma"
  | .trailingCharacters => "trailing characters"
  | .unexpectedEndOfHexEscape => "unexpected end of hex escape"
  | .recursionLimit => "recursion limit exceeded"

/-- The class of a fault. -/
def category : Fault → Category
  | .message _ => .data
  | .eofList | .eofObject | .eofString | .eofValue => .truncated
  | _ => .malformed

end Fault

/-- A reading failure, with the place in the text where it is reported. Failures that
come from decoding a value already in memory have no place. -/
structure ReadError where
  fault : Fault
  pos : Option Pos
  deriving DecidableEq, Repr, Inhabited

/-- The text of a reading failure, ending with its place when it has one. -/
def ReadError.message (e : ReadError) : String :=
  match e.pos with
  | some p => e.fault.text ++ " at line " ++ toString p.line ++ " column " ++ toString p.column
  | none => e.fault.text

/-- A data error without a place. -/
def ReadError.data (text : String) : ReadError :=
  ⟨.message text, none⟩

/-- The unread rest of a text and the place where it starts. -/
structure Cursor where
  rest : List Char
  pos : Pos
  deriving Inhabited

namespace Cursor

/-- A cursor at the start of `s`. -/
def ofString (s : String) : Cursor :=
  ⟨s.toList, Pos.start⟩

/-- The next character. -/
def peek? (c : Cursor) : Option Char :=
  c.rest.head?

/-- The place one byte ahead, where a fault about the next character is reported. -/
def ahead (c : Cursor) : Pos :=
  match c.rest with
  | [] => c.pos
  | ch :: _ => c.pos.advanceByte ch

/-- Moves past the next character. -/
def bump (c : Cursor) : Cursor :=
  match c.rest with
  | [] => c
  | ch :: rest => ⟨rest, c.pos.advance ch⟩

/-- A fault reported at the cursor. -/
def fail (c : Cursor) (f : Fault) : ReadError :=
  ⟨f, some c.pos⟩

/-- A fault reported one byte ahead of the cursor. -/
def failAhead (c : Cursor) (f : Fault) : ReadError :=
  ⟨f, some c.ahead⟩

/-- Whether `ch` is blank between JSON tokens. -/
def isBlank (ch : Char) : Bool :=
  ch = ' ' || ch = '\n' || ch = '\t' || ch = '\r'

/-- The cursor past the blanks at the start of `rest`, which starts at `p`. -/
def skipBlankFrom : List Char → Pos → Cursor
  | [], p => ⟨[], p⟩
  | ch :: rest, p => if isBlank ch then skipBlankFrom rest (p.advance ch) else ⟨ch :: rest, p⟩

/-- Moves past blanks. -/
def skipBlank (c : Cursor) : Cursor :=
  skipBlankFrom c.rest c.pos

/-- Reads the characters of `word` one at a time. A wrong character is consumed before
the fault is reported. -/
def expectWord : List Char → Cursor → Except ReadError Cursor
  | [], c => .ok c
  | w :: ws, c =>
      match c.rest with
      | [] => .error (c.fail .eofValue)
      | ch :: rest =>
          if ch = w then expectWord ws ⟨rest, c.pos.advance ch⟩
          else .error ⟨.expectedIdent, some (c.pos.advanceByte ch)⟩

/-- Skips blanks, then expects `:` before a member's value. -/
def expectColon (c : Cursor) : Except ReadError Cursor :=
  let c := c.skipBlank
  match c.peek? with
  | some ':' => .ok c.bump
  | some _ => .error (c.failAhead .expectedColon)
  | none => .error (c.failAhead .eofObject)

/-- Skips blanks and expects the `]` that closes an array. -/
def closeArray (c : Cursor) : Except ReadError Cursor :=
  let c := c.skipBlank
  match c.peek? with
  | some ']' => .ok c.bump
  | some ',' =>
      let d := c.bump.skipBlank
      if d.peek? = some ']' then .error (d.failAhead .trailingComma)
      else .error (d.failAhead .trailingCharacters)
  | some _ => .error (c.failAhead .trailingCharacters)
  | none => .error (c.failAhead .eofList)

/-- Where `closeArray` leaves the cursor, whether or not it succeeds. -/
def afterCloseArray (c : Cursor) : Cursor :=
  let c := c.skipBlank
  match c.peek? with
  | some ']' => c.bump
  | some ',' => c.bump.skipBlank
  | _ => c

/-- Skips blanks and expects the closing brace of an object. -/
def closeObject (c : Cursor) : Except ReadError Cursor :=
  let c := c.skipBlank
  match c.peek? with
  | some '\x7d' => .ok c.bump
  | some ',' => .error (c.failAhead .trailingComma)
  | some _ => .error (c.failAhead .trailingCharacters)
  | none => .error (c.failAhead .eofObject)

/-- Where `closeObject` leaves the cursor, whether or not it succeeds. -/
def afterCloseObject (c : Cursor) : Cursor :=
  let c := c.skipBlank
  match c.peek? with
  | some '\x7d' => c.bump
  | _ => c

/-- Whether another item follows in an array; `first` is true before the first item.
A comma between items is consumed. -/
def nextItem (c : Cursor) (first : Bool) : Except ReadError (Bool × Cursor) :=
  let c := c.skipBlank
  match c.peek? with
  | none => .error (c.failAhead .eofList)
  | some ']' => .ok (false, c)
  | some ch =>
      if first then .ok (true, c)
      else if ch = ',' then
        let d := c.bump.skipBlank
        match d.peek? with
        | some ']' => .error (d.failAhead .trailingComma)
        | some _ => .ok (true, d)
        | none => .error (d.failAhead .eofValue)
      else .error (c.failAhead .expectedListCommaOrEnd)

/-- Whether another member follows in an object; `first` is true before the first one.
A comma between members is consumed, and the cursor is left on the key's quote. -/
def nextMember (c : Cursor) (first : Bool) : Except ReadError (Bool × Cursor) :=
  let c := c.skipBlank
  match c.peek? with
  | none => .error (c.failAhead .eofObject)
  | some '\x7d' => .ok (false, c)
  | some ch =>
      if first then
        if ch = '"' then .ok (true, c) else .error (c.failAhead .keyMustBeString)
      else if ch = ',' then
        let d := c.bump.skipBlank
        match d.peek? with
        | some '"' => .ok (true, d)
        | some '\x7d' => .error (d.failAhead .trailingComma)
        | some _ => .error (d.failAhead .keyMustBeString)
        | none => .error (d.failAhead .eofValue)
      else .error (c.failAhead .expectedObjectCommaOrEnd)

end Cursor


/-! ### Strings -/

/-- The value of an ASCII hexadecimal digit. -/
def hexDigit? (ch : Char) : Option Nat :=
  if '0' ≤ ch ∧ ch ≤ '9' then some (ch.toNat - '0'.toNat)
  else if 'a' ≤ ch ∧ ch ≤ 'f' then some (ch.toNat - 'a'.toNat + 10)
  else if 'A' ≤ ch ∧ ch ≤ 'F' then some (ch.toNat - 'A'.toNat + 10)
  else none

/-- The number written by four hexadecimal digits. -/
def hex4? (a b c d : Char) : Option Nat :=
  match hexDigit? a, hexDigit? b, hexDigit? c, hexDigit? d with
  | some w, some x, some y, some z => some (((w * 16 + x) * 16 + y) * 16 + z)
  | _, _, _, _ => none

/-- Whether `rest` holds at least `k` bytes. -/
def hasBytes : List Char → Nat → Bool
  | _, 0 => true
  | [], _ + 1 => false
  | c :: rest, k + 1 => if c.utf8Size ≥ k + 1 then true else hasBytes rest (k + 1 - c.utf8Size)

/-- The fault of a `\u` escape whose four digits are not all there or not all
hexadecimal: four bytes are taken at once, so the fault is reported after them, or at
the end of the text when fewer remain. -/
def hexFault (rest : List Char) (p : Pos) : ReadError :=
  if hasBytes rest 4 then ⟨.invalidEscape, some (p.advanceBytes rest 4)⟩
  else ⟨.eofString, some (p.advanceBytes rest (4 * rest.length))⟩

/-- The fault of a leading surrogate that is not followed by an escaped trailing one. -/
def surrogateFault (rest : List Char) (p : Pos) : ReadError :=
  match rest with
  | [] => ⟨.eofString, some p⟩
  | '\\' :: [] => ⟨.eofString, some (p.advance '\\')⟩
  | '\\' :: 'u' :: more => hexFault more ((p.advance '\\').advance 'u')
  | '\\' :: ch :: _ => ⟨.unexpectedEndOfHexEscape, some ((p.advance '\\').advanceByte ch)⟩
  | ch :: _ => ⟨.unexpectedEndOfHexEscape, some (p.advanceByte ch)⟩

/-- The character a one-letter escape stands for. -/
def simpleEscape? : Char → Option Char
  | '"' => some '"'
  | '\\' => some '\\'
  | '/' => some '/'
  | 'b' => some '\x08'
  | 'f' => some '\x0c'
  | 'n' => some '\n'
  | 'r' => some '\r'
  | 't' => some '\t'
  | _ => none

/-- The place after four ASCII characters. -/
def Pos.skip4 (p : Pos) : Pos :=
  ⟨p.line, p.column + 4⟩

/-- Reads the rest of a string whose opening quote is consumed; `acc` holds the
characters read so far, last first. Text must be valid: a `\u` escape of a leading
surrogate must be followed by one of a trailing surrogate. A control character is
consumed before it is reported. -/
def readStringFrom : List Char → Pos → List Char → Except ReadError (String × Cursor)
  | [], p, _ => .error ⟨.eofString, some p⟩
  | '"' :: rest, p, acc => .ok (String.ofList acc.reverse, ⟨rest, p.advance '"'⟩)
  | '\\' :: 'u' :: a :: b :: c :: d :: rest, p, acc =>
      let q := (p.advance '\\').advance 'u'
      match hex4? a b c d with
      | none => .error (hexFault (a :: b :: c :: d :: rest) q)
      | some n =>
          let q := q.skip4
          if 0xDC00 ≤ n ∧ n ≤ 0xDFFF then .error ⟨.loneLeadingSurrogate, some q⟩
          else if n < 0xD800 ∨ 0xDBFF < n then readStringFrom rest q (Char.ofNat n :: acc)
          else
            match rest with
            | '\\' :: 'u' :: a2 :: b2 :: c2 :: d2 :: more =>
                let r := (q.advance '\\').advance 'u'
                match hex4? a2 b2 c2 d2 with
                | none => .error (hexFault (a2 :: b2 :: c2 :: d2 :: more) r)
                | some m =>
                    let r := r.skip4
                    if m < 0xDC00 ∨ 0xDFFF < m then .error ⟨.loneLeadingSurrogate, some r⟩
                    else
                      let code := (((n - 0xD800) <<< 10) ||| (m - 0xDC00)) + 0x10000
                      readStringFrom more r (Char.ofNat code :: acc)
            | other => .error (surrogateFault other q)
  | '\\' :: 'u' :: rest, p, _ => .error (hexFault rest ((p.advance '\\').advance 'u'))
  | '\\' :: [], p, _ => .error ⟨.eofString, some (p.advance '\\')⟩
  | '\\' :: e :: rest, p, acc =>
      let q := p.advance '\\'
      match simpleEscape? e with
      | some ch => readStringFrom rest (q.advance e) (ch :: acc)
      | none => .error ⟨.invalidEscape, some (q.advanceByte e)⟩
  | ch :: rest, p, acc =>
      if ch.toNat < 0x20 then .error ⟨.controlCharacter, some (p.advance ch)⟩
      else readStringFrom rest (p.advance ch) (ch :: acc)

/-- Reads a string whose opening quote is consumed. -/
def Cursor.readString (c : Cursor) : Except ReadError (String × Cursor) :=
  readStringFrom c.rest c.pos []

/-- Skips the rest of a string whose opening quote is consumed, as a reader does for a
value it ignores: escapes are checked for their form only, and a control character is
reported where it stands. -/
def skipStringFrom : List Char → Pos → Except ReadError Cursor
  | [], p => .error ⟨.eofString, some p⟩
  | '"' :: rest, p => .ok ⟨rest, p.advance '"'⟩
  | '\\' :: 'u' :: a :: b :: c :: d :: rest, p =>
      let q := (p.advance '\\').advance 'u'
      match hex4? a b c d with
      | none => .error (hexFault (a :: b :: c :: d :: rest) q)
      | some _ => skipStringFrom rest q.skip4
  | '\\' :: 'u' :: rest, p => .error (hexFault rest ((p.advance '\\').advance 'u'))
  | '\\' :: [], p => .error ⟨.eofString, some (p.advance '\\')⟩
  | '\\' :: e :: rest, p =>
      let q := p.advance '\\'
      match simpleEscape? e with
      | some _ => skipStringFrom rest (q.advance e)
      | none => .error ⟨.invalidEscape, some (q.advanceByte e)⟩
  | ch :: rest, p =>
      if ch.toNat < 0x20 then .error ⟨.controlCharacter, some p⟩
      else skipStringFrom rest (p.advance ch)

/-! ### Numbers -/

/-- The largest 64-bit unsigned integer. -/
def maxU64 : Nat := Nat.pow 2 64 - 1

/-- The largest 32-bit signed integer. -/
def maxI32 : Int := Int.pow 2 31 - 1

/-- An integer clamped to the 32-bit signed range, as saturating exponent arithmetic
leaves it. -/
def clampI32 (n : Int) : Int :=
  if n > maxI32 then maxI32 else if n < -Int.pow 2 31 then -Int.pow 2 31 else n

/-- Whether `ch` is an ASCII digit. -/
def isDigit (ch : Char) : Bool :=
  '0' ≤ ch && ch ≤ '9'

/-- The value of an ASCII digit. -/
def digitValue (ch : Char) : Nat :=
  ch.toNat - '0'.toNat

/-- A number read as a double: `significand · 10^exponent`, with its sign; a double that
would be infinite is out of range, reported where the number ends. -/
def floatNumber (positive : Bool) (significand : Nat) (exponent : Int) (c : Cursor) :
    Except ReadError (Number × Cursor) :=
  match Decimal.fromParts significand exponent with
  | none => .error (c.fail .numberOutOfRange)
  | some f => .ok (.float (if positive then f else -f).toBits, c)

/-- Skips the digits at the start of `rest`. -/
def skipDigitsFrom : List Char → Pos → Cursor
  | [], p => ⟨[], p⟩
  | ch :: rest, p => if isDigit ch then skipDigitsFrom rest (p.advance ch) else ⟨ch :: rest, p⟩

/-- Reads the digits of an exponent after its first one; `exp` is the value so far. An
exponent past the 32-bit range gives zero, or is out of range when it is positive and
the significand is not zero. -/
def readExponentDigits (positive : Bool) (significand : Nat) (start : Int) (positiveExp : Bool) :
    List Char → Pos → Nat → Except ReadError (Number × Cursor)
  | ch :: rest, p, exp =>
      if isDigit ch then
        let p := p.advance ch
        let next := exp * 10 + digitValue ch
        if (next : Int) > maxI32 then
          if significand ≠ 0 ∧ positiveExp then .error ⟨.numberOutOfRange, some p⟩
          else
            let c := skipDigitsFrom rest p
            .ok (.float (if positive then (0 : Float) else -0).toBits, c)
        else readExponentDigits positive significand start positiveExp rest p next
      else
        let final := if positiveExp then clampI32 (start + exp) else clampI32 (start - exp)
        floatNumber positive significand final ⟨ch :: rest, p⟩
  | [], p, exp =>
      let final := if positiveExp then clampI32 (start + exp) else clampI32 (start - exp)
      floatNumber positive significand final ⟨[], p⟩

/-- Reads an exponent; the cursor is on its `e` or `E`. -/
def readExponent (positive : Bool) (significand : Nat) (start : Int) (c : Cursor) :
    Except ReadError (Number × Cursor) :=
  let c := c.bump
  let (positiveExp, c) : Bool × Cursor :=
    match c.peek? with
    | some '+' => (true, c.bump)
    | some '-' => (false, c.bump)
    | _ => (true, c)
  match c.rest with
  | [] => .error (c.fail .eofValue)
  | ch :: rest =>
      if isDigit ch then
        readExponentDigits positive significand start positiveExp rest (c.pos.advance ch) (digitValue ch)
      else .error ⟨.invalidNumber, some (c.pos.advanceByte ch)⟩

/-- What follows the digits kept of a significand: an exponent or the end. -/
def readAfterFraction (positive : Bool) (significand : Nat) (exponent : Int) (c : Cursor) :
    Except ReadError (Number × Cursor) :=
  match c.peek? with
  | some 'e' | some 'E' => readExponent positive significand exponent c
  | _ => floatNumber positive significand exponent c

/-- Reads the digits after a decimal point; `count` digits are read so far. Digits that
no longer fit a 64-bit significand are skipped. -/
def readFractionDigits (positive : Bool) (before : Int) :
    List Char → Pos → Nat → Nat → Except ReadError (Number × Cursor)
  | ch :: rest, p, significand, count =>
      if isDigit ch then
        let next := significand * 10 + digitValue ch
        if next > maxU64 then
          readAfterFraction positive significand (before - count) (skipDigitsFrom (ch :: rest) p)
        else readFractionDigits positive before rest (p.advance ch) next (count + 1)
      else if count = 0 then .error ⟨.invalidNumber, some (p.advanceByte ch)⟩
      else readAfterFraction positive significand (before - count) ⟨ch :: rest, p⟩
  | [], p, significand, count =>
      if count = 0 then .error ⟨.eofValue, some p⟩
      else readAfterFraction positive significand (before - count) ⟨[], p⟩

/-- Reads a fraction; the cursor is on its decimal point. -/
def readFraction (positive : Bool) (significand : Nat) (before : Int) (c : Cursor) :
    Except ReadError (Number × Cursor) :=
  let c := c.bump
  readFractionDigits positive before c.rest c.pos significand 0

/-- The integer read with its sign. A negative zero, and a negative integer below the
64-bit range, become doubles. -/
def integerNumber (positive : Bool) (significand : Nat) : Number :=
  if positive then .unsigned significand.toUInt64
  else if significand = 0 ∨ significand > Nat.pow 2 63 then
    .float (-(Decimal.doubleOfNat significand)).toBits
  else .signed (Int64.ofInt (-(significand : Int)))

/-- What follows the digits of an integer part. -/
def readAfterInteger (positive : Bool) (significand : Nat) (c : Cursor) :
    Except ReadError (Number × Cursor) :=
  match c.peek? with
  | some '.' => readFraction positive significand 0 c
  | some 'e' | some 'E' => readExponent positive significand 0 c
  | _ => .ok (integerNumber positive significand, c)

/-- Reads the digits of an integer part that no longer fit 64 bits: they only raise the
decimal exponent. -/
def readLongInteger (positive : Bool) (significand : Nat) : List Char → Pos → Nat →
    Except ReadError (Number × Cursor)
  | ch :: rest, p, exponent =>
      if isDigit ch then readLongInteger positive significand rest (p.advance ch) (exponent + 1)
      else
        let c : Cursor := ⟨ch :: rest, p⟩
        match ch with
        | '.' => readFraction positive significand exponent c
        | 'e' | 'E' => readExponent positive significand exponent c
        | _ => floatNumber positive significand exponent c
  | [], p, exponent => floatNumber positive significand exponent ⟨[], p⟩

/-- Reads the digits of an integer part after its first one. -/
def readIntegerDigits (positive : Bool) : List Char → Pos → Nat →
    Except ReadError (Number × Cursor)
  | ch :: rest, p, significand =>
      if isDigit ch then
        let next := significand * 10 + digitValue ch
        if next > maxU64 then readLongInteger positive significand (ch :: rest) p 0
        else readIntegerDigits positive rest (p.advance ch) next
      else readAfterInteger positive significand ⟨ch :: rest, p⟩
  | [], p, significand => readAfterInteger positive significand ⟨[], p⟩

/-- Reads a number whose sign, if any, is consumed. A leading zero stands alone. -/
def Cursor.readNumber (positive : Bool) (c : Cursor) : Except ReadError (Number × Cursor) :=
  match c.rest with
  | [] => .error (c.fail .eofValue)
  | '0' :: rest =>
      let d : Cursor := ⟨rest, c.pos.advance '0'⟩
      match rest with
      | ch :: _ => if isDigit ch then .error (d.failAhead .invalidNumber) else readAfterInteger positive 0 d
      | [] => readAfterInteger positive 0 d
  | ch :: rest =>
      if isDigit ch then readIntegerDigits positive rest (c.pos.advance ch) (digitValue ch)
      else .error ⟨.invalidNumber, some (c.pos.advanceByte ch)⟩

/-- Skips an exponent, checking only its form; the cursor is on its `e` or `E`. -/
def skipExponent (c : Cursor) : Except ReadError Cursor :=
  let c := c.bump
  let c := match c.peek? with
    | some '+' | some '-' => c.bump
    | _ => c
  match c.rest with
  | ch :: rest =>
      if isDigit ch then .ok (skipDigitsFrom rest (c.pos.advance ch))
      else .error ⟨.invalidNumber, some (c.pos.advanceByte ch)⟩
  | [] => .error (c.fail .invalidNumber)

/-- Skips a number whose sign, if any, is consumed, checking only its form. -/
def Cursor.skipNumber (c : Cursor) : Except ReadError Cursor := do
  let c ← match c.rest with
    | '0' :: rest =>
        let d : Cursor := ⟨rest, c.pos.advance '0'⟩
        match rest with
        | ch :: _ => if isDigit ch then throw (d.failAhead .invalidNumber) else pure d
        | [] => pure d
    | ch :: rest =>
        if isDigit ch then pure (skipDigitsFrom rest (c.pos.advance ch))
        else throw ⟨.invalidNumber, some (c.pos.advanceByte ch)⟩
    | [] => throw (c.fail .invalidNumber)
  let c ← match c.peek? with
    | some '.' =>
        let d := c.bump
        match d.rest with
        | ch :: rest =>
            if isDigit ch then pure (skipDigitsFrom rest (d.pos.advance ch))
            else throw (d.failAhead .invalidNumber)
        | [] => throw (d.failAhead .invalidNumber)
    | _ => pure c
  match c.peek? with
  | some 'e' | some 'E' => skipExponent c
  | _ => pure c

/-! ### Values -/

mutual

/-- Reads one value as it is written, objects keeping their members in order. `depth` is
how many more arrays and objects may be opened; opening one when a single level is left
is refused. `fuel` bounds the nesting of calls and is never the limit for a fuel of
twice the text's length. -/
def readValue : Nat → Nat → Cursor → Except ReadError (Json × Cursor)
  | 0, _, c => .error (c.failAhead .eofValue)
  | fuel + 1, depth, c =>
      let c := c.skipBlank
      match c.rest with
      | [] => .error (c.failAhead .eofValue)
      | 'n' :: _ => do let d ← c.bump.expectWord ['u', 'l', 'l']; pure (.null, d)
      | 't' :: _ => do let d ← c.bump.expectWord ['r', 'u', 'e']; pure (.bool true, d)
      | 'f' :: _ => do let d ← c.bump.expectWord ['a', 'l', 's', 'e']; pure (.bool false, d)
      | '-' :: _ => do let (n, d) ← c.bump.readNumber false; pure (.num n, d)
      | '"' :: _ => do let (s, d) ← c.bump.readString; pure (.str s, d)
      | '[' :: _ =>
          if depth ≤ 1 then .error (c.failAhead .recursionLimit)
          else do
            let (items, d) ← readItems fuel (depth - 1) c.bump true []
            let d ← d.closeArray
            pure (.arr items, d)
      | '\x7b' :: _ =>
          if depth ≤ 1 then .error (c.failAhead .recursionLimit)
          else do
            let (members, d) ← readMembers fuel (depth - 1) c.bump true []
            let d ← d.closeObject
            pure (.obj members, d)
      | ch :: _ =>
          if isDigit ch then do let (n, d) ← c.readNumber true; pure (.num n, d)
          else .error (c.failAhead .expectedValue)

/-- Reads the items of an array up to its closing bracket, which is left unread. -/
def readItems : Nat → Nat → Cursor → Bool → List Json → Except ReadError (List Json × Cursor)
  | 0, _, c, _, _ => .error (c.failAhead .eofList)
  | fuel + 1, depth, c, first, acc =>
      match c.nextItem first with
      | .error e => .error e
      | .ok (false, c) => .ok (acc.reverse, c)
      | .ok (true, c) =>
          match readValue fuel depth c with
          | .error e => .error e
          | .ok (v, c) => readItems fuel depth c false (v :: acc)

/-- Reads the members of an object up to its closing brace, which is left unread. -/
def readMembers : Nat → Nat → Cursor → Bool → List (String × Json) →
    Except ReadError (List (String × Json) × Cursor)
  | 0, _, c, _, _ => .error (c.failAhead .eofObject)
  | fuel + 1, depth, c, first, acc =>
      match c.nextMember first with
      | .error e => .error e
      | .ok (false, c) => .ok (acc.reverse, c)
      | .ok (true, c) =>
          match c.bump.readString with
          | .error e => .error e
          | .ok (key, c) =>
              match c.expectColon with
              | .error e => .error e
              | .ok c =>
                  match readValue fuel depth c with
                  | .error e => .error e
                  | .ok (v, c) => readMembers fuel depth c false ((key, v) :: acc)

end

/-- Fuel enough to read any value from the cursor. -/
def Cursor.fuel (c : Cursor) : Nat :=
  2 * c.rest.length + 4

/-- The nesting a reader allows at the top of a text. -/
def maxDepth : Nat := 128

mutual

/-- Skips one value, checking its form only: numbers are not converted, escapes are not
decoded, and nesting is not limited. -/
def skipValue : Nat → Cursor → Except ReadError Cursor
  | 0, c => .error (c.failAhead .eofValue)
  | fuel + 1, c =>
      let c := c.skipBlank
      match c.rest with
      | [] => .error (c.failAhead .eofValue)
      | 'n' :: _ => c.bump.expectWord ['u', 'l', 'l']
      | 't' :: _ => c.bump.expectWord ['r', 'u', 'e']
      | 'f' :: _ => c.bump.expectWord ['a', 'l', 's', 'e']
      | '-' :: _ => c.bump.skipNumber
      | '"' :: _ => skipStringFrom c.bump.rest c.bump.pos
      | '[' :: _ =>
          let d := c.bump.skipBlank
          match d.peek? with
          | some ']' => .ok d.bump
          | none => .error (d.failAhead .eofList)
          | some _ => skipItems fuel d
      | '\x7b' :: _ =>
          let d := c.bump.skipBlank
          match d.peek? with
          | some '\x7d' => .ok d.bump
          | none => .error (d.failAhead .eofObject)
          | some _ => skipMembers fuel d
      | ch :: _ =>
          if isDigit ch then c.skipNumber else .error (c.failAhead .expectedValue)

/-- Skips the items of an array from its next item through its closing bracket. After
a comma another item must follow. -/
def skipItems : Nat → Cursor → Except ReadError Cursor
  | 0, c => .error (c.failAhead .eofList)
  | fuel + 1, c =>
      match skipValue fuel c with
      | .error e => .error e
      | .ok d =>
          let d := d.skipBlank
          match d.peek? with
          | some ',' => skipItems fuel d.bump
          | some ']' => .ok d.bump
          | some _ => .error (d.failAhead .expectedListCommaOrEnd)
          | none => .error (d.failAhead .eofList)

/-- Skips the members of an object from its next key through its closing brace. After a
comma another key must follow. -/
def skipMembers : Nat → Cursor → Except ReadError Cursor
  | 0, c => .error (c.failAhead .eofObject)
  | fuel + 1, c =>
      let c := c.skipBlank
      match c.peek? with
      | some '"' =>
          match skipStringFrom c.bump.rest c.bump.pos with
          | .error e => .error e
          | .ok d =>
              match d.expectColon with
              | .error e => .error e
              | .ok d =>
                  match skipValue fuel d with
                  | .error e => .error e
                  | .ok d =>
                      let d := d.skipBlank
                      match d.peek? with
                      | some ',' => skipMembers fuel d.bump
                      | some '\x7d' => .ok d.bump
                      | some _ => .error (d.failAhead .expectedObjectCommaOrEnd)
                      | none => .error (d.failAhead .eofObject)
      | some _ => .error (c.failAhead .keyMustBeString)
      | none => .error (c.failAhead .eofObject)

end

/-- Checks that only blanks are left after a value. -/
def Cursor.finish (c : Cursor) : Except ReadError Unit :=
  let c := c.skipBlank
  match c.peek? with
  | none => .ok ()
  | some _ => .error (c.failAhead .trailingCharacters)

/-- Reads a whole text as one value, objects keeping their members in order. -/
def read (s : String) : Except ReadError Json := do
  let c := Cursor.ofString s
  let (v, c) ← readValue c.fuel maxDepth c
  c.finish
  pure v

/-- Reads a whole text as one value held as a map: object members sorted by key, a
later member replacing an earlier one of the same key. -/
def parse (s : String) : Except ReadError Json :=
  (read s).map normalize

end ExprSynth.Json
