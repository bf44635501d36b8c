import ExprSynth.Problem.Basic
import ExprSynth.Search.Enumerator

/-!
Synthesis from examples: check the problem, fix the grammar's signatures, seed the
terminals and search. The result is an expression that reproduces every example, or
none within the depth bound, with the statistics of the search.
-/

namespace ExprSynth

/-- Why a synthesis did not run to its end: a problem that breaks a precondition, or an
evaluation that failed during the search. -/
inductive SynthError where
  | config (e : ConfigError)
  | eval (e : EvalError)
  deriving DecidableEq, Repr, Inhabited

/-- The text of a synthesis error. -/
def SynthError.message : SynthError → String
  | .config e => "invalid problem: " ++ e.message
  | .eval e => "evaluation failed: " ++ e.message

/-- An expression that reproduces every example, or none within the depth bound. -/
inductive Outcome where
  | found (e : Expr)
  | noSolution
  deriving DecidableEq, Repr, Inhabited

/-- The outcome of a search with its statistics. -/
structure Synthesis where
  outcome : Outcome
  stats : Stats
  deriving DecidableEq, Repr, Inhabited

/-- The family variables are read at: the one of the list `Variable` is in, or integers
when there are no variables to place. -/
def variableTyOf (g : ResolvedGrammar) (names : List String) : Except ConfigError Ty :=
  match g.variableTy with
  | some ty => .ok ty
  | none => if names.isEmpty then .ok .int else .error .unplacedVariable

/-- Checks the problem, fixes the grammar's signatures and searches, layer by layer up to the
depth bound, for an expression of the problem's grammar that reproduces every example. No
expression shallower than the depth the search reached does; the one found may be deeper than
that depth, as the pools of a layer's later operators hold what its earlier ones built. -/
def synthesize (p : Problem) (policy : Policy) (tieBreak : TieBreak) :
    Except SynthError Synthesis := do
  p.validate.mapError .config
  let g ← p.grammar.resolve.mapError .config
  let ty ← (variableTyOf g p.names).mapError .config
  let e ← (Enumerator.start g ⟨p.constants, p.names, ty⟩ p.examples p.maxDepth policy
    tieBreak).mapError .eval
  let (winner, stats) ← e.run.mapError .eval
  pure ⟨(winner.map (·.expr)).elim .noSolution .found, stats⟩

end ExprSynth
