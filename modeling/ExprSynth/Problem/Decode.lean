import ExprSynth.Json.Decode
import ExprSynth.Problem.Basic

/-!
Decoding problems and their parts from JSON values. Members are visited in the order the
value holds them, which is key order for a value held as a map; the fields of a problem
come first and its grammar last, from the members that are not fields of the problem. Missing fields are reported in the order the fields
are declared, and an example or grammar may also be given as a sequence of its fields.
-/

namespace ExprSynth

open Json

/-- The kind named `name`. -/
def NodeKind.ofName (name : String) : Except String NodeKind :=
  match NodeKind.ofLabel? name with
  | some k => .ok k
  | none => .error (unknownVariant name (NodeKind.all.map NodeKind.label))

/-- A node kind, written as its name or as a map from its name to the unit value. The
unit value is `null`; in a value that was `buffered`, held first among the members of a
problem that are not its own fields, the empty map stands for it as well. -/
def NodeKind.decodeIn (buffered : Bool) : Decoder NodeKind
  | .str s => NodeKind.ofName s
  | .obj [(k, v)] => do
      let kind ← NodeKind.ofName k
      match v with
      | .null => pure kind
      | .obj [] => if buffered then pure kind else throw (invalidType "map" "unit")
      | other => throw (invalidType (unexpected other) "unit")
  | .obj _ => .error (invalidValue "map" "map with a single key")
  | v => .error (invalidType (unexpected v) "string or map")

/-- A node kind read directly. -/
def NodeKind.decode : Decoder NodeKind :=
  NodeKind.decodeIn false

/-- An example output: an integer in the 64-bit signed range, else a truth value. -/
def Value.decode : Decoder Value
  | .num (.signed n) => .ok (.int n)
  | .num (.unsigned n) =>
      if n.toNat < Nat.pow 2 63 then .ok (.int n.toNat.toInt64)
      else .error "data did not match any variant of untagged enum Value"
  | .bool b => .ok (.bool b)
  | _ => .error "data did not match any variant of untagged enum Value"

/-- Bindings, a map from names to 64-bit signed integers. -/
def Env.decode : Decoder Env :=
  fun v => Env.ofList <$> toMembers toInt64 v

/-- The fields of an example seen so far. -/
structure ExampleFields where
  inputs : Option Env := none
  output : Option Value := none

/-- Reads the members of an example in order; other members are ignored. -/
def ExampleFields.add (f : ExampleFields) : String × Json → Except String ExampleFields
  | ("inputs", v) =>
      if f.inputs.isSome then .error (duplicateField "inputs")
      else do pure { f with inputs := some (← Env.decode v) }
  | ("output", v) =>
      if f.output.isSome then .error (duplicateField "output")
      else do pure { f with output := some (← Value.decode v) }
  | _ => .ok f

/-- The example of complete fields. -/
def ExampleFields.finish (f : ExampleFields) : Except String Example :=
  match f.inputs, f.output with
  | none, _ => .error (missingField "inputs")
  | some _, none => .error (missingField "output")
  | some i, some o => .ok ⟨i, o⟩

/-- The length message of an example given as a too short sequence. -/
def Example.tooShort (n : Nat) : String :=
  invalidLength n "struct Example with 2 elements"

/-- An example: a map with `inputs` and `output`, or a sequence of the two. -/
def Example.decode : Decoder Example
  | .obj members => do
      let f ← members.foldlM ExampleFields.add {}
      f.finish
  | .arr [] => .error (Example.tooShort 0)
  | .arr [i] => do
      let _ ← Env.decode i
      throw (Example.tooShort 1)
  | .arr (i :: o :: rest) => do
      let inputs ← Env.decode i
      let output ← Value.decode o
      if rest.isEmpty then pure ⟨inputs, output⟩
      else throw (invalidLength (rest.length + 2) "fewer elements in array")
  | v => .error (invalidType (unexpected v) "struct Example")

/-- The fields of a grammar seen so far. -/
structure GrammarFields where
  intOps : Option (List NodeKind) := none
  boolOps : Option (List NodeKind) := none

/-- Reads one member of a grammar; other members are ignored. -/
def GrammarFields.add (buffered : Bool) (f : GrammarFields) :
    String × Json → Except String GrammarFields
  | ("int_ops", v) =>
      if f.intOps.isSome then .error (duplicateField "int_ops")
      else do pure { f with intOps := some (← toList (NodeKind.decodeIn buffered) v) }
  | ("bool_ops", v) =>
      if f.boolOps.isSome then .error (duplicateField "bool_ops")
      else do pure { f with boolOps := some (← toList (NodeKind.decodeIn buffered) v) }
  | _ => .ok f

/-- The grammar of complete fields. -/
def GrammarFields.finish (f : GrammarFields) : Except String Grammar :=
  match f.intOps, f.boolOps with
  | none, _ => .error (missingField "int_ops")
  | some _, none => .error (missingField "bool_ops")
  | some i, some b => .ok ⟨i, b⟩

/-- The grammar given by the members `entries`, in order; members of other names are
ignored, and a name given twice is refused. -/
def Grammar.ofEntries (buffered : Bool) (entries : List (String × Json)) :
    Except String Grammar := do
  let f ← entries.foldlM (GrammarFields.add buffered) {}
  f.finish

/-- The length message of a grammar given as a too short sequence. -/
def Grammar.tooShort (n : Nat) : String :=
  invalidLength n "struct Grammar with 2 elements"

/-- A grammar: a map with `int_ops` and `bool_ops`, or a sequence of the two. -/
def Grammar.decode : Decoder Grammar
  | .obj members => Grammar.ofEntries false members
  | .arr [] => .error (Grammar.tooShort 0)
  | .arr [i] => do
      let _ ← toList NodeKind.decode i
      throw (Grammar.tooShort 1)
  | .arr (i :: b :: rest) => do
      let intOps ← toList NodeKind.decode i
      let boolOps ← toList NodeKind.decode b
      if rest.isEmpty then pure ⟨intOps, boolOps⟩
      else throw (invalidLength (rest.length + 2) "fewer elements in array")
  | v => .error (invalidType (unexpected v) "struct Grammar")

/-- The fields of a problem seen so far, with the members of other names kept, in
order, for the grammar. -/
structure ProblemFields where
  maxDepth : Option Nat := none
  names : Option (List String) := none
  constants : Option (List Int64) := none
  examples : Option (List Example) := none
  others : Array (String × Json) := #[]

/-- Whether the field `name` has been seen. -/
def ProblemFields.has (f : ProblemFields) : String → Bool
  | "max_depth" => f.maxDepth.isSome
  | "variables" => f.names.isSome
  | "constants" => f.constants.isSome
  | "examples" => f.examples.isSome
  | _ => false

/-- Records the value of a field of the problem, or keeps an other member. -/
def ProblemFields.set (f : ProblemFields) : String × Json → Except String ProblemFields
  | ("max_depth", v) => do pure { f with maxDepth := some (← toUsize v) }
  | ("variables", v) => do pure { f with names := some (← toList toText v) }
  | ("constants", v) => do pure { f with constants := some (← toList toInt64 v) }
  | ("examples", v) => do pure { f with examples := some (← toList Example.decode v) }
  | (k, v) => .ok { f with others := f.others.push (k, v) }

/-- The problem of the fields read: the missing ones are reported in the order of the
fields, `constants` defaulting to none; the grammar is read last, from the other
members. -/
def ProblemFields.finish (f : ProblemFields) : Except String Problem := do
  let some maxDepth := f.maxDepth | throw (missingField "max_depth")
  let some names := f.names | throw (missingField "variables")
  let some examples := f.examples | throw (missingField "examples")
  let grammar ← Grammar.ofEntries true f.others.toList
  pure ⟨maxDepth, grammar, names, f.constants.getD [], examples⟩

/-- A problem held as a map: its fields, with the grammar's two lists among them. -/
def Problem.decode : Decoder Problem
  | .obj members => do
      let f ← members.foldlM (fun f m =>
        if f.has m.1 then throw (duplicateField m.1) else f.set m) ({} : ProblemFields)
      f.finish
  | v => .error (invalidType (unexpected v) "struct Problem")

end ExprSynth
