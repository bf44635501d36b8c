import ExprSynth.Search.Enumerator
import ExprSynth.Problem.Basic

/-!
The language of a search: the expressions built from its terminals by the operators of
its grammar that take arguments, each applied to children of the families its signature
requires. `Derives g t e ty` says that `e` is such an expression, of family `ty`; a search
can only hand the bank expressions of its language.
-/

namespace ExprSynth

mutual

/-- `e` is in the language of the grammar `g` over the terminals `t`, at family `ty`: a
constant of `t` at the integers, a variable of `t` at the family variables are read at,
`false`, or a node of an enabled operator that takes arguments over children of the
families of its signature. -/
inductive Derives (g : ResolvedGrammar) (t : Terminals) : Expr → Ty → Prop where
  | const {n : Int64} (mem : n ∈ t.constants) : Derives g t (.const n) .int
  | var {name : String} (mem : name ∈ t.names) : Derives g t (.var name t.variableTy) t.variableTy
  | falseLit : Derives g t .falseLit .bool
  | node {op : Operator} {args : List Expr} {e : Expr} (enabled : op ∈ g.ops)
      (takesArgs : 0 < op.arity) (built : op.kind.build args = .ok e)
      (children : DerivesAll g t args op.args) : Derives g t e op.ret

/-- Each expression of a list is in the language at the family at its position. -/
inductive DerivesAll (g : ResolvedGrammar) (t : Terminals) : List Expr → List Ty → Prop where
  | nil : DerivesAll g t [] []
  | cons {e : Expr} {es : List Expr} {ty : Ty} {tys : List Ty} (head : Derives g t e ty)
      (tail : DerivesAll g t es tys) : DerivesAll g t (e :: es) (ty :: tys)

end

/-- The terminals of a problem under its resolved grammar: its constants, and its
variables read at the family the grammar places them in, the integers when it places
them nowhere. -/
def Problem.terminals (p : Problem) (g : ResolvedGrammar) : Terminals :=
  ⟨p.constants, p.names, g.variableTy.getD .int⟩

end ExprSynth
