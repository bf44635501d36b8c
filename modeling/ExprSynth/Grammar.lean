import ExprSynth.Catalog
import ExprSynth.ConfigError

/-!
Grammars: which operators produce integers and which truth values. Resolving a grammar
fixes every enabled operator's signature, in catalog order; `Variable` and `IfThenElse`
take the family of the list they are in and may be in one list only.
-/

namespace ExprSynth

/-- Which operators produce integers and which produce truth values in one search. An
operator listed in neither is disabled; `Variable` and `IfThenElse` take their family
from the list they are in. -/
structure Grammar where
  intOps : List NodeKind
  boolOps : List NodeKind
  deriving DecidableEq, Repr, Inhabited

/-- An operator with its signature fixed for one search. -/
structure Operator where
  kind : NodeKind
  args : List Ty
  ret : Ty
  deriving DecidableEq, Repr, Inhabited

/-- The number of children an operator takes. -/
def Operator.arity (op : Operator) : Nat :=
  op.args.length

/-- A grammar with every signature fixed: the family of variables, if they are placed,
and the enabled operators in catalog order. -/
structure ResolvedGrammar where
  variableTy : Option Ty
  ops : List Operator
  deriving DecidableEq, Repr, Inhabited

namespace Grammar

/-- Variables, constants, sums, products and conditionals on the integer side;
conjunction, negation, comparison and `false` on the other. -/
def standard : Grammar :=
  ⟨[.variable, .constant, .plus, .times, .ifThenElse], [.and, .not, .lessThan, .falseLit]⟩

/-- Whether an operator is listed at all. -/
def enabled (g : Grammar) (kind : NodeKind) : Bool :=
  g.intOps.contains kind || g.boolOps.contains kind

/-- The family of the list an operator is placed in; an operator in both lists is
ambiguous. -/
def placement (g : Grammar) (kind : NodeKind) : Except ConfigError (Option Ty) :=
  match g.intOps.contains kind, g.boolOps.contains kind with
  | true, true => .error (.ambiguousSort kind)
  | true, false => .ok (some .int)
  | false, true => .ok (some .bool)
  | false, false => .ok none

/-- The resolved operator of one kind, if it is enabled. -/
def resolveKind (g : Grammar) (kind : NodeKind) : Except ConfigError (Option Operator) :=
  if !g.enabled kind then .ok none
  else
    match kind.fixedSignature? with
    | some (args, ret) => .ok (some ⟨kind, args, ret⟩)
    | none => do
        match ← g.placement kind with
        | some ty =>
            let (args, ret) := kind.placedSignature ty
            pure (some ⟨kind, args, ret⟩)
        | none => pure none

/-- Resolves the operators of `kinds` in order, keeping the enabled ones. -/
def resolveAll (g : Grammar) : List NodeKind → Except ConfigError (List Operator)
  | [] => .ok []
  | kind :: rest => do
      let op ← g.resolveKind kind
      let ops ← g.resolveAll rest
      pure (match op with | some op => op :: ops | none => ops)

/-- Fixes every signature. The placement of variables is checked first; a conditional
listed in both lists is then found at its turn in catalog order. An operator with a fixed
signature may be listed twice. -/
def resolve (g : Grammar) : Except ConfigError ResolvedGrammar := do
  let variableTy ← g.placement .variable
  let ops ← g.resolveAll NodeKind.all
  pure ⟨variableTy, ops⟩

end Grammar

/-- The resolved operator of a kind, if the grammar enables it. -/
def ResolvedGrammar.op? (g : ResolvedGrammar) (kind : NodeKind) : Option Operator :=
  g.ops.find? (·.kind == kind)

end ExprSynth
