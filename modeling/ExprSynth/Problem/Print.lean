import ExprSynth.Json.Print
import ExprSynth.Problem.Basic

/-!
A problem as indented JSON text, and its readable summary: a line per example with the
inputs by name and the output, then the constants.
-/

namespace ExprSynth

/-- A value as JSON: a number or a truth value. -/
def Value.toJson : Value → Json
  | .int n => Json.ofInt64 n
  | .bool b => .bool b

/-- Bindings as a JSON object, sorted by name. -/
def Env.toJson (env : Env) : Json :=
  .obj (env.bindings.map fun (k, v) => (k, Json.ofInt64 v))

/-- An example as a JSON object of its inputs and output. -/
def Example.toJson (ex : Example) : Json :=
  .obj [("inputs", ex.inputs.toJson), ("output", ex.output.toJson)]

/-- A list of node kinds as JSON names. -/
def NodeKind.listJson (kinds : List NodeKind) : Json :=
  .arr (kinds.map fun k => .str k.label)

/-- A problem as a JSON object: its fields in order, the grammar's two lists in place of
the grammar. -/
def Problem.toJson (p : Problem) : Json :=
  .obj [("max_depth", Json.ofNat p.maxDepth),
    ("int_ops", NodeKind.listJson p.grammar.intOps),
    ("bool_ops", NodeKind.listJson p.grammar.boolOps),
    ("variables", .arr (p.names.map .str)),
    ("constants", .arr (p.constants.map Json.ofInt64)),
    ("examples", .arr (p.examples.map Example.toJson))]

/-- The problem as indented JSON text. -/
def Problem.toText (p : Problem) : String :=
  Json.pretty 0 p.toJson

/-- One line of the summary: the inputs by name, then the output. -/
def Example.summary (ex : Example) : String :=
  " " ++ String.join (ex.inputs.bindings.map fun (k, v) => " * " ++ k ++ ": " ++ Value.intText v) ++
    " * _out: " ++ ex.output.render ++ "\n"

/-- A readable summary of a problem: a line per example, then the constants. -/
def Problem.summary (p : Problem) : String :=
  "Solving for: \n" ++ String.join (p.examples.map Example.summary) ++
    "with constants: " ++ ", ".intercalate (p.constants.map Value.intText)

end ExprSynth
