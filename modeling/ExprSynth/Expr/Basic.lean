/-!
Expressions over 64-bit integers and truth values: the two families `Ty`, the values,
the node kinds in catalog order with their names, the expression tree, its depth and its
fully parenthesised text.
-/

namespace ExprSynth

/-- The two families of values an expression can denote. Every operator takes and
returns values of fixed families, once the grammar has placed it. -/
inductive Ty where
  | int
  | bool
  deriving DecidableEq, Repr, Hashable, Inhabited

/-- The name a family goes by in messages. -/
def Ty.name : Ty → String
  | .int => "int"
  | .bool => "bool"

/-- A value computed by an expression: a 64-bit signed integer or a truth value. An integer
and a truth value are never equal, so `0` and `false` tell two candidates apart. -/
inductive Value where
  | int (n : Int64)
  | bool (b : Bool)
  deriving DecidableEq, Repr, Hashable, Inhabited

/-- The family of a value. -/
def Value.ty : Value → Ty
  | .int _ => .int
  | .bool _ => .bool

/-- Decimal text of an integer, with a leading minus sign when it is negative. -/
def Value.intText (n : Int64) : String :=
  toString n.toInt

/-- Text of a value: a decimal integer, or `true` / `false`. -/
def Value.render : Value → String
  | .int n => Value.intText n
  | .bool b => if b then "true" else "false"

/-- The tag of an expression node without its payload. The constructors are listed in
catalog order, the order in which the search tries operators. -/
inductive NodeKind where
  | constant
  | falseLit
  | variable
  | plus
  | times
  | lessThan
  | and
  | not
  | ifThenElse
  deriving DecidableEq, Repr, Hashable, Inhabited

namespace NodeKind

/-- Every node kind, in catalog order. -/
def all : List NodeKind :=
  [.constant, .falseLit, .variable, .plus, .times, .lessThan, .and, .not, .ifThenElse]

/-- The name of a kind in problem files and requests. -/
def label : NodeKind → String
  | .constant => "Constant"
  | .falseLit => "False"
  | .variable => "Variable"
  | .plus => "Plus"
  | .times => "Times"
  | .lessThan => "LessThan"
  | .and => "And"
  | .not => "Not"
  | .ifThenElse => "IfThenElse"

/-- The short name of a kind in messages. -/
def short : NodeKind → String
  | .constant => "NUM"
  | .falseLit => "FALSE"
  | .variable => "VR"
  | .plus => "PLUS"
  | .times => "TIMES"
  | .lessThan => "LT"
  | .and => "AND"
  | .not => "NOT"
  | .ifThenElse => "ITE"

/-- The kind whose label is `name`, if any. -/
def ofLabel? (name : String) : Option NodeKind :=
  all.find? (·.label == name)

theorem mem_all (k : NodeKind) : k ∈ all := by
  cases k <;> simp [all]

end NodeKind

/-- The binary operators. -/
inductive BinOp where
  | plus
  | times
  | lessThan
  | and
  deriving DecidableEq, Repr, Hashable, Inhabited

/-- The node kind of a binary operator. -/
def BinOp.kind : BinOp → NodeKind
  | .plus => .plus
  | .times => .times
  | .lessThan => .lessThan
  | .and => .and

/-- The symbol printed between the operands. -/
def BinOp.symbol : BinOp → String
  | .plus => "+"
  | .times => "*"
  | .lessThan => "<"
  | .and => "&&"

/-- An expression tree. A variable carries the family it is read at: an integer binding
is read as itself, or as `true` when it is non-zero. -/
inductive Expr where
  | const (n : Int64)
  | var (name : String) (ty : Ty)
  | falseLit
  | binop (op : BinOp) (l r : Expr)
  | not (e : Expr)
  | ite (c t f : Expr)
  deriving DecidableEq, Repr, Hashable, Inhabited

namespace Expr

/-- The tag of the root node. -/
def kind : Expr → NodeKind
  | .const _ => .constant
  | .var .. => .variable
  | .falseLit => .falseLit
  | .binop op _ _ => op.kind
  | .not _ => .not
  | .ite .. => .ifThenElse

/-- Height of the tree; leaves have depth 1. -/
def depth : Expr → Nat
  | .const _ | .var .. | .falseLit => 1
  | .binop _ l r => 1 + max l.depth r.depth
  | .not e => 1 + e.depth
  | .ite c t f => 1 + max (max c.depth t.depth) f.depth

/-- Fully parenthesised text of an expression. Variables print as their bare names,
whatever family they are read at. -/
def render : Expr → String
  | .const n => Value.intText n
  | .var name _ => name
  | .falseLit => "false"
  | .binop op l r => "(" ++ l.render ++ op.symbol ++ r.render ++ ")"
  | .not e => "(!" ++ e.render ++ ")"
  | .ite c t f => "(if " ++ c.render ++ " then " ++ t.render ++ " else " ++ f.render ++ ")"

theorem depth_pos (e : Expr) : 0 < e.depth := by
  cases e <;> simp only [depth] <;> omega

end Expr

end ExprSynth
