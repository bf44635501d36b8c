import ExprSynth.Expr.Basic

/-!
The operator catalog: the signature of each node kind that has a fixed one, the signature
of `Variable` and `IfThenElse` once placed at a family, and the builders that refuse a
node with the wrong number of children.
-/

namespace ExprSynth

/-- The argument and result families of an operator whose signature does not depend on
the grammar. `Variable` and `IfThenElse` have none: they take the family of the list they
are placed in. -/
def NodeKind.fixedSignature? : NodeKind → Option (List Ty × Ty)
  | .constant => some ([], .int)
  | .falseLit => some ([], .bool)
  | .variable => none
  | .plus => some ([.int, .int], .int)
  | .times => some ([.int, .int], .int)
  | .lessThan => some ([.int, .int], .bool)
  | .and => some ([.bool, .bool], .bool)
  | .not => some ([.bool], .bool)
  | .ifThenElse => none

/-- The signature of an operator placed at family `ty`. A variable is a terminal of that
family, and a conditional chooses between two branches of it. -/
def NodeKind.placedSignature (kind : NodeKind) (ty : Ty) : List Ty × Ty :=
  match kind with
  | .ifThenElse => ([.bool, ty, ty], ty)
  | _ => ([], ty)

/-- An operator node does not take the number of children it was given. -/
structure BuildError where
  kind : NodeKind
  count : Nat
  deriving DecidableEq, Repr, Inhabited

/-- The text of a build error. -/
def BuildError.message (e : BuildError) : String :=
  e.kind.short ++ " cannot be built from " ++ toString e.count ++ " arguments"

/-- The node of kind `kind` over `args`. Binary operators take two children, `NOT` one,
`ITE` three; the terminals `NUM`, `FALSE` and `VR` carry a payload instead and are never
built from children. -/
def NodeKind.build (kind : NodeKind) (args : List Expr) : Except BuildError Expr :=
  match kind, args with
  | .plus, [l, r] => .ok (.binop .plus l r)
  | .times, [l, r] => .ok (.binop .times l r)
  | .lessThan, [l, r] => .ok (.binop .lessThan l r)
  | .and, [l, r] => .ok (.binop .and l r)
  | .not, [e] => .ok (.not e)
  | .ifThenElse, [c, t, f] => .ok (.ite c t f)
  | _, _ => .error ⟨kind, args.length⟩

end ExprSynth
