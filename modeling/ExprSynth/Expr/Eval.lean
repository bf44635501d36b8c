import ExprSynth.Expr.Basic

/-!
Evaluation. An example binds names to integers (`Env`); `Expr.eval` computes the value of
an expression under it, failing on an unbound variable or an operand of the wrong family.
Sums and products wrap around on 64 bits, a variable read as a truth value is true when
its binding is not zero, `AND` skips the check of its right operand when the left is
false, and a conditional evaluates only the branch it takes.
-/

namespace ExprSynth

/-- The bindings of one example: names to integers, sorted by name with one binding per
name, as a map from names to values is listed. -/
structure Env where
  bindings : List (String × Int64)
  deriving DecidableEq, Repr, Inhabited

namespace Env

/-- The empty environment. -/
def empty : Env := ⟨[]⟩

/-- The binding of `name`, if any. -/
def get? (env : Env) (name : String) : Option Int64 :=
  env.bindings.lookup name

/-- Whether `name` is bound. -/
def contains (env : Env) (name : String) : Bool :=
  (env.get? name).isSome

/-- Adds a binding to a list sorted by name; a binding of the same name is replaced. -/
def insertSorted (name : String) (v : Int64) : List (String × Int64) → List (String × Int64)
  | [] => [(name, v)]
  | (k, w) :: rest =>
      if name < k then (name, v) :: (k, w) :: rest
      else if name = k then (name, v) :: rest
      else (k, w) :: insertSorted name v rest

/-- The environment of a list of bindings read in order: a later binding of a name
replaces an earlier one, and the result is sorted by name. -/
def ofList (pairs : List (String × Int64)) : Env :=
  ⟨pairs.foldl (fun acc p => insertSorted p.1 p.2 acc) []⟩

end Env

/-- Why an evaluation fails: a variable without binding, or an operand of the wrong
family. -/
inductive EvalError where
  | unbound (name : String)
  | mismatch (node : NodeKind) (expected : Ty) (found : Value)
  deriving DecidableEq, Repr, Inhabited

/-- The text of an evaluation error. -/
def EvalError.message : EvalError → String
  | .unbound name => "variable `" ++ name ++ "` is not bound by the example"
  | .mismatch node expected found =>
      node.short ++ " expected a " ++ expected.name ++ " operand, got " ++ found.render

namespace Value

/-- The integer of an operand of `node`, or a mismatch. -/
def expectInt (node : NodeKind) : Value → Except EvalError Int64
  | .int n => .ok n
  | v => .error (.mismatch node .int v)

/-- The truth value of an operand of `node`, or a mismatch. -/
def expectBool (node : NodeKind) : Value → Except EvalError Bool
  | .bool b => .ok b
  | v => .error (.mismatch node .bool v)

end Value

/-- A binary operator applied to evaluated operands. Operands are checked left to right;
sums and products wrap around on 64 bits, and `AND` leaves its right operand unchecked
when the left one is false. -/
def BinOp.apply (op : BinOp) (l r : Value) : Except EvalError Value :=
  match op with
  | .plus => do
      let a ← l.expectInt .plus
      let b ← r.expectInt .plus
      return .int (a + b)
  | .times => do
      let a ← l.expectInt .times
      let b ← r.expectInt .times
      return .int (a * b)
  | .lessThan => do
      let a ← l.expectInt .lessThan
      let b ← r.expectInt .lessThan
      return .bool (decide (a < b))
  | .and => do
      let a ← l.expectBool .and
      if a then
        let b ← r.expectBool .and
        return .bool b
      else
        return .bool false

/-- Negation of an evaluated operand. -/
def Value.negate (v : Value) : Except EvalError Value := do
  let b ← v.expectBool .not
  return .bool !b

/-- The value of a variable read at family `ty` from its binding. -/
def Value.ofBinding (ty : Ty) (x : Int64) : Value :=
  match ty with
  | .int => .int x
  | .bool => .bool (x != 0)

/-- Evaluates an expression under `env`. Both operands of a binary node are evaluated,
left first, before either is checked; of a conditional only the taken branch is
evaluated. -/
def Expr.eval (env : Env) : Expr → Except EvalError Value
  | .const n => .ok (.int n)
  | .falseLit => .ok (.bool false)
  | .var name ty =>
      match env.get? name with
      | some x => .ok (Value.ofBinding ty x)
      | none => .error (.unbound name)
  | .binop op l r => do
      let a ← l.eval env
      let b ← r.eval env
      op.apply a b
  | .not e => do
      let a ← e.eval env
      a.negate
  | .ite c t f => do
      let a ← c.eval env
      let b ← a.expectBool .ifThenElse
      if b then t.eval env else f.eval env

end ExprSynth
