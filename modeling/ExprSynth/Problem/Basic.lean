import ExprSynth.Candidate
import ExprSynth.Grammar

/-!
Problems: a depth bound, a grammar, variable names, constants and examples, and the
preconditions a search needs of them.
-/

namespace ExprSynth

/-- Everything one synthesis needs: a depth bound, the grammar, the variables the
examples bind, the constants to seed, and the examples. -/
structure Problem where
  maxDepth : Nat
  grammar : Grammar
  names : List String
  constants : List Int64
  examples : List Example
  deriving DecidableEq, Repr, Inhabited

namespace Problem

/-- A problem over the standard grammar. -/
def standard (maxDepth : Nat) (names : List String) (constants : List Int64)
    (examples : List Example) : Problem :=
  ⟨maxDepth, Grammar.standard, names, constants, examples⟩

/-- The first example, counting from `index`, that leaves one of `names` unbound,
with the first such variable in list order. -/
def firstUnbound (names : List String) : Nat → List Example → Option (Nat × String)
  | _, [] => none
  | index, ex :: rest =>
      match names.find? (fun v => !ex.inputs.contains v) with
      | some name => some (index, name)
      | none => firstUnbound names (index + 1) rest

/-- Checks the preconditions of the search: a positive depth bound, at least one example,
and every variable bound by every example. -/
def validate (p : Problem) : Except ConfigError Unit :=
  if p.maxDepth = 0 then .error .zeroDepth
  else if p.examples.isEmpty then .error .emptyExamples
  else
    match firstUnbound p.names 0 p.examples with
    | some (index, name) => .error (.unboundVariable index name)
    | none => .ok ()

end Problem

end ExprSynth
