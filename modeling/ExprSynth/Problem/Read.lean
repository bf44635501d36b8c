import ExprSynth.Json.Reader
import ExprSynth.Problem.Decode

/-!
Reading a problem straight from its text. Most errors are placed where the reader stands
when it finds them. A data error found once a whole value is read, such as a missing
field, has no place of its own: it is placed where the object or array that holds it is
closed, after the blanks and the closing bracket that follow.
-/

namespace ExprSynth

open Json

/-- A failure while reading the inside of an object or array: an error with its place,
or a data error to be placed once the enclosing value is closed, from `cursor` on. -/
inductive Failure where
  | placed (e : ReadError)
  | pending (text : String) (cursor : Cursor)

namespace Failure

/-- A reading error as a failure. -/
def lift (r : Except ReadError α) : Except Failure α :=
  r.mapError .placed

/-- Places the failure of the inside of an object, or checks its closing brace. -/
def settleObject : Except Failure (α × Cursor) → Except ReadError (α × Cursor)
  | .ok (v, c) => do
      let c ← c.closeObject
      pure (v, c)
  | .error (.placed e) => .error e
  | .error (.pending text c) => .error ⟨.message text, some c.afterCloseObject.pos⟩

/-- Places the failure of the inside of an array, or checks its closing bracket. -/
def settleArray : Except Failure (α × Cursor) → Except ReadError (α × Cursor)
  | .ok (v, c) => do
      let c ← c.closeArray
      pure (v, c)
  | .error (.placed e) => .error e
  | .error (.pending text c) => .error ⟨.message text, some c.afterCloseArray.pos⟩

end Failure

namespace Json.Cursor

/-- The error for a value that is not of the kind `expected`: a scalar is read first, so
that it can be named and the error placed after it; an array or object is named and the
error placed before it. -/
def invalidType (c : Cursor) (expected : String) : ReadError :=
  let named (found : String) (d : Cursor) : ReadError :=
    d.fail (.message (Json.invalidType found expected))
  match c.rest with
  | [] => c.failAhead .eofValue
  | 'n' :: _ =>
      match c.bump.expectWord ['u', 'l', 'l'] with
      | .ok d => named "null" d
      | .error e => e
  | 't' :: _ =>
      match c.bump.expectWord ['r', 'u', 'e'] with
      | .ok d => named "boolean `true`" d
      | .error e => e
  | 'f' :: _ =>
      match c.bump.expectWord ['a', 'l', 's', 'e'] with
      | .ok d => named "boolean `false`" d
      | .error e => e
  | '-' :: _ =>
      match c.bump.readNumber false with
      | .ok (n, d) => named n.unexpected d
      | .error e => e
  | '"' :: _ =>
      match c.bump.readString with
      | .ok (s, d) => named ("string " ++ quote s) d
      | .error e => e
  | '[' :: _ => named "sequence" c
  | '\x7b' :: _ => named "map" c
  | ch :: _ =>
      if isDigit ch then
        match c.readNumber true with
        | .ok (n, d) => named n.unexpected d
        | .error e => e
      else c.failAhead .expectedValue

/-- A data error placed at the cursor. -/
def dataError (c : Cursor) (text : String) : ReadError :=
  c.fail (.message text)

/-- Reads a 64-bit signed integer. -/
def readInt64 (c : Cursor) : Except ReadError (Int64 × Cursor) :=
  let c := c.skipBlank
  match c.rest with
  | [] => .error (c.failAhead .eofValue)
  | '-' :: _ => do
      let (n, d) ← c.bump.readNumber false
      match n with
      | .signed k => pure (k, d)
      | other => throw (d.dataError (Json.invalidType other.unexpected "i64"))
  | ch :: _ =>
      if isDigit ch then do
        let (n, d) ← c.readNumber true
        match n with
        | .unsigned k =>
            if k.toNat < Nat.pow 2 63 then pure (k.toNat.toInt64, d)
            else throw (d.dataError (invalidValue n.unexpected "i64"))
        | other => throw (d.dataError (Json.invalidType other.unexpected "i64"))
      else .error (c.invalidType "i64")

/-- Reads a machine-sized unsigned integer, 64 bits wide. -/
def readUsize (c : Cursor) : Except ReadError (Nat × Cursor) :=
  let c := c.skipBlank
  match c.rest with
  | [] => .error (c.failAhead .eofValue)
  | '-' :: _ => do
      let (n, d) ← c.bump.readNumber false
      match n with
      | .signed _ => throw (d.dataError (invalidValue n.unexpected "usize"))
      | other => throw (d.dataError (Json.invalidType other.unexpected "usize"))
  | ch :: _ =>
      if isDigit ch then do
        let (n, d) ← c.readNumber true
        match n with
        | .unsigned k => pure (k.toNat, d)
        | other => throw (d.dataError (Json.invalidType other.unexpected "usize"))
      else .error (c.invalidType "usize")

/-- Reads a string. -/
def readText (c : Cursor) : Except ReadError (String × Cursor) :=
  let c := c.skipBlank
  match c.rest with
  | [] => .error (c.failAhead .eofValue)
  | '"' :: _ => c.bump.readString
  | _ => .error (c.invalidType "a string")

end Json.Cursor

/-- Reads the items of a sequence up to its closing bracket, which is left unread. -/
def readSeqItems (item : Nat → Cursor → Except ReadError (α × Cursor)) (depth : Nat) :
    Nat → Cursor → Bool → List α → Except ReadError (List α × Cursor)
  | 0, c, _, _ => .error (c.failAhead .eofList)
  | fuel + 1, c, first, acc => do
      let (more, c) ← c.nextItem first
      if more then
        let (v, c) ← item depth c
        readSeqItems item depth fuel c false (v :: acc)
      else pure (acc.reverse, c)

/-- Reads a sequence, each item with `item`, given how many more levels may be
opened. -/
def readSeq (item : Nat → Cursor → Except ReadError (α × Cursor)) (depth : Nat) (c : Cursor) :
    Except ReadError (List α × Cursor) :=
  let c := c.skipBlank
  match c.rest with
  | [] => .error (c.failAhead .eofValue)
  | '[' :: _ =>
      if depth ≤ 1 then .error (c.failAhead .recursionLimit)
      else do
        let (items, d) ← readSeqItems item (depth - 1) c.fuel c.bump true []
        let d ← d.closeArray
        pure (items, d)
  | _ => .error (c.invalidType "a sequence")

/-- Reads the members of a map of bindings up to its closing brace, which is left
unread. -/
def readBindingMembers : Nat → Cursor → Bool → List (String × Int64) →
    Except ReadError (List (String × Int64) × Cursor)
  | 0, c, _, _ => .error (c.failAhead .eofObject)
  | fuel + 1, c, first, acc => do
      let (more, c) ← c.nextMember first
      if more then
        let (key, c) ← c.bump.readString
        let c ← c.expectColon
        let (v, c) ← c.readInt64
        readBindingMembers fuel c false ((key, v) :: acc)
      else pure (acc.reverse, c)

/-- Reads a map of bindings; a later binding of a name replaces an earlier one. -/
def readBindings (depth : Nat) (c : Cursor) : Except ReadError (Env × Cursor) :=
  let c := c.skipBlank
  match c.rest with
  | [] => .error (c.failAhead .eofValue)
  | '\x7b' :: _ =>
      if depth ≤ 1 then .error (c.failAhead .recursionLimit)
      else do
        let (pairs, d) ← readBindingMembers c.fuel c.bump true []
        let d ← d.closeObject
        pure (Env.ofList pairs, d)
  | _ => .error (c.invalidType "a map")

/-- Reads an example output as a whole value, then takes it as an integer or a truth
value. -/
def readOutput (depth : Nat) (c : Cursor) : Except Failure (Value × Cursor) := do
  let (content, c) ← Failure.lift (readValue c.fuel depth c)
  match Value.decode content with
  | .ok v => pure (v, c)
  | .error text => throw (.pending text c)

/-- Reads the members of an example up to its closing brace, which is left unread.
Members of other names are skipped, their form checked only. -/
def readExampleMembers (depth : Nat) : Nat → Cursor → Bool → ExampleFields →
    Except Failure (ExampleFields × Cursor)
  | 0, c, _, _ => .error (.placed (c.failAhead .eofObject))
  | fuel + 1, c, first, f => do
      let (more, c) ← Failure.lift (c.nextMember first)
      if !more then return (f, c)
      let (key, c) ← Failure.lift c.bump.readString
      match key with
      | "inputs" =>
          if f.inputs.isSome then throw (.pending (duplicateField "inputs") c)
          let c ← Failure.lift c.expectColon
          let (env, c) ← Failure.lift (readBindings depth c)
          readExampleMembers depth fuel c false { f with inputs := some env }
      | "output" =>
          if f.output.isSome then throw (.pending (duplicateField "output") c)
          let c ← Failure.lift c.expectColon
          let (v, c) ← readOutput depth c
          readExampleMembers depth fuel c false { f with output := some v }
      | _ =>
          let c ← Failure.lift c.expectColon
          let c ← Failure.lift (skipValue c.fuel c)
          readExampleMembers depth fuel c false f

/-- Reads an example given as a sequence of its inputs and output, up to the closing
bracket, which is left unread. -/
def readExampleItems (depth : Nat) (c : Cursor) : Except Failure (Example × Cursor) := do
  let (more, c) ← Failure.lift (c.nextItem true)
  if !more then throw (.pending (Example.tooShort 0) c)
  let (env, c) ← Failure.lift (readBindings depth c)
  let (more, c) ← Failure.lift (c.nextItem false)
  if !more then throw (.pending (Example.tooShort 1) c)
  let (v, c) ← readOutput depth c
  pure (⟨env, v⟩, c)

/-- Reads an example, given as a map or as a sequence. -/
def readExample (depth : Nat) (c : Cursor) : Except ReadError (Example × Cursor) :=
  let c := c.skipBlank
  match c.rest with
  | [] => .error (c.failAhead .eofValue)
  | '\x7b' :: _ =>
      if depth ≤ 1 then .error (c.failAhead .recursionLimit)
      else Failure.settleObject do
        let (f, d) ← readExampleMembers (depth - 1) c.fuel c.bump true {}
        match f.finish with
        | .ok ex => pure (ex, d)
        | .error text => throw (.pending text d)
  | '[' :: _ =>
      if depth ≤ 1 then .error (c.failAhead .recursionLimit)
      else Failure.settleArray (readExampleItems (depth - 1) c.bump)
  | _ => .error (c.invalidType "struct Example")

/-- Reads the value of the problem member `key`: one of the problem's fields, or any
other value, kept for the grammar. -/
def readProblemField (depth : Nat) (key : String) (f : ProblemFields) (c : Cursor) :
    Except ReadError (ProblemFields × Cursor) :=
  match key with
  | "max_depth" => do
      let (n, c) ← c.readUsize
      pure ({ f with maxDepth := some n }, c)
  | "variables" => do
      let (vs, c) ← readSeq (fun _ c => c.readText) depth c
      pure ({ f with names := some vs }, c)
  | "constants" => do
      let (ns, c) ← readSeq (fun _ c => c.readInt64) depth c
      pure ({ f with constants := some ns }, c)
  | "examples" => do
      let (exs, c) ← readSeq readExample depth c
      pure ({ f with examples := some exs }, c)
  | _ => do
      let (v, c) ← readValue c.fuel depth c
      pure ({ f with others := f.others.push (key, v) }, c)

/-- Reads the members of a problem up to its closing brace, which is left unread. A
field of the problem given twice is refused as soon as its name is read. -/
def readProblemMembers (depth : Nat) : Nat → Cursor → Bool → ProblemFields →
    Except Failure (ProblemFields × Cursor)
  | 0, c, _, _ => .error (.placed (c.failAhead .eofObject))
  | fuel + 1, c, first, f => do
      let (more, c) ← Failure.lift (c.nextMember first)
      if !more then return (f, c)
      let (key, c) ← Failure.lift c.bump.readString
      if f.has key then throw (.pending (duplicateField key) c)
      let c ← Failure.lift c.expectColon
      let (f, c) ← Failure.lift (readProblemField depth key f c)
      readProblemMembers depth fuel c false f

/-- Reads a problem from its text: one object, with nothing but blanks after it. -/
def Problem.parse (s : String) : Except ReadError Problem := do
  let c := (Cursor.ofString s).skipBlank
  let (p, c) ← match c.rest with
    | [] => Except.error (c.failAhead .eofValue)
    | '\x7b' :: _ =>
        Failure.settleObject do
          let (f, d) ← readProblemMembers (Json.maxDepth - 1) c.fuel c.bump true {}
          match f.finish with
          | .ok p => pure (p, d)
          | .error text => throw (.pending text d)
    | _ => Except.error (c.invalidType "struct Problem")
  c.finish
  pure p

end ExprSynth
