import ExprSynth.Expr.Eval
import ExprSynth.Catalog

/-!
Candidates: expressions with their values on every example. A candidate succeeds when
its values are the examples' outputs. `Candidate.node?` builds the candidate of a node
from its children's values, as evaluating the node would compute them.
-/

namespace ExprSynth

/-- One input/output pair that a synthesized expression has to reproduce. -/
structure Example where
  inputs : Env
  output : Value
  deriving DecidableEq, Repr, Inhabited

/-- An expression with the family it was built at and its value on every example, in
order. It succeeds when those values are the examples' outputs. -/
structure Candidate where
  expr : Expr
  ty : Ty
  outputs : List Value
  success : Bool
  deriving DecidableEq, Repr, Inhabited

namespace Candidate

/-- The candidate of `expr` whose values are `outputs`, where `expected` are the
examples' outputs. -/
def ofOutputs (expr : Expr) (ty : Ty) (expected outputs : List Value) : Candidate :=
  ⟨expr, ty, outputs, decide (outputs = expected)⟩

/-- Evaluates `expr` on every example; the first example whose evaluation fails gives
the error. -/
def ofExpr (expr : Expr) (ty : Ty) (examples : List Example) : Except EvalError Candidate := do
  let outputs ← examples.mapM fun ex => expr.eval ex.inputs
  pure (ofOutputs expr ty (examples.map (·.output)) outputs)

/-- Two candidates are equivalent when they agree on every example. -/
def equivalent (a b : Candidate) : Bool :=
  a.outputs == b.outputs

/-- The values of the node of kind `kind` over children with the given values, example
by example, as evaluating the node computes them once its children are evaluated. `none`
when the kind does not take that many children. -/
def nodeOutputs : NodeKind → List (List Value) → Option (List (Except EvalError Value))
  | .plus, [l, r] => some (List.zipWith (BinOp.apply .plus) l r)
  | .times, [l, r] => some (List.zipWith (BinOp.apply .times) l r)
  | .lessThan, [l, r] => some (List.zipWith (BinOp.apply .lessThan) l r)
  | .and, [l, r] => some (List.zipWith (BinOp.apply .and) l r)
  | .not, [a] => some (a.map Value.negate)
  | .ifThenElse, [c, t, f] =>
      some (List.zipWith (fun (a : Value) (b : Value × Value) => do
        if ← a.expectBool .ifThenElse then pure b.1 else pure b.2) c (List.zip t f))
  | _, _ => none

/-- The candidate for the node of kind `kind` over the candidates `args`, at family
`ty`; `expected` are the examples' outputs. Its values come from the arguments' values,
so the arguments are not evaluated again. `none` when the kind does not take that many
children. -/
def node? (kind : NodeKind) (ty : Ty) (expected : List Value) (args : List Candidate) :
    Option (Except EvalError Candidate) :=
  match kind.build (args.map (·.expr)), nodeOutputs kind (args.map (·.outputs)) with
  | .ok expr, some results => some (do
      let outputs ← results.mapM id
      pure (ofOutputs expr ty expected outputs))
  | _, _ => none

end Candidate

end ExprSynth
