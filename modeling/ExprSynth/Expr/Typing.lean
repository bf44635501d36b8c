import ExprSynth.Expr.Eval

/-!
Well-sorted expressions. `Expr.HasTy e ty` says that `e` denotes a value of family `ty`
by the signatures of its nodes alone; `Expr.varNames` lists the variables an environment
has to bind. On such an expression evaluation neither meets an operand of the wrong
family nor, when the environment binds every variable, an unbound one.
-/

namespace ExprSynth

/-- The family of both operands of a binary operator. -/
def BinOp.operandTy : BinOp → Ty
  | .plus | .times | .lessThan => .int
  | .and => .bool

/-- The family of the result of a binary operator. -/
def BinOp.resultTy : BinOp → Ty
  | .plus | .times => .int
  | .lessThan | .and => .bool

/-- An expression is well sorted at `ty`: a constant at the integers, `false` at the truth
values, a variable at the family it is read at, a binary node at its result family over
operands of its operand family, a negation over a truth value, and a conditional over a
truth value and two branches of its own family. -/
inductive Expr.HasTy : Expr → Ty → Prop where
  | const (n : Int64) : Expr.HasTy (.const n) .int
  | falseLit : Expr.HasTy .falseLit .bool
  | var (name : String) (ty : Ty) : Expr.HasTy (.var name ty) ty
  | binop {op : BinOp} {l r : Expr} (left : l.HasTy op.operandTy)
      (right : r.HasTy op.operandTy) : Expr.HasTy (.binop op l r) op.resultTy
  | not {e : Expr} (operand : e.HasTy .bool) : Expr.HasTy (.not e) .bool
  | ite {c t f : Expr} {ty : Ty} (cond : c.HasTy .bool) (yes : t.HasTy ty)
      (no : f.HasTy ty) : Expr.HasTy (.ite c t f) ty

/-- The names of the variables of an expression, left to right, with repetitions. -/
def Expr.varNames : Expr → List String
  | .const _ | .falseLit => []
  | .var name _ => [name]
  | .binop _ l r => l.varNames ++ r.varNames
  | .not e => e.varNames
  | .ite c t f => c.varNames ++ t.varNames ++ f.varNames

end ExprSynth
