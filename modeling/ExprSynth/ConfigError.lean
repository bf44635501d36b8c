import ExprSynth.Expr.Basic

/-!
Problems that break a precondition of the search, with their messages.
-/

namespace ExprSynth

/-- A problem that breaks a precondition of the search, found before anything is
enumerated. -/
inductive ConfigError where
  | zeroDepth
  | emptyExamples
  | ambiguousSort (kind : NodeKind)
  | unplacedVariable
  | unboundVariable (index : Nat) (name : String)
  deriving DecidableEq, Repr, Inhabited

/-- The text of a configuration error. -/
def ConfigError.message : ConfigError → String
  | .zeroDepth => "max depth must be at least 1"
  | .emptyExamples => "no examples given"
  | .ambiguousSort kind => kind.short ++ " is listed as both an integer and a boolean operator"
  | .unplacedVariable =>
      "variables are declared but " ++ NodeKind.variable.short ++ " is in neither operator list"
  | .unboundVariable index name =>
      "example " ++ toString index ++ " does not bind variable `" ++ name ++ "`"

/-- The name of the error's case, as reports give it. -/
def ConfigError.caseName : ConfigError → String
  | .zeroDepth => "ZeroDepth"
  | .emptyExamples => "EmptyExamples"
  | .ambiguousSort _ => "AmbiguousSort"
  | .unplacedVariable => "UnplacedVariable"
  | .unboundVariable .. => "UnboundVariable"

end ExprSynth
