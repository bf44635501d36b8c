import ExprSynth.Bank
import ExprSynth.Grammar

/-!
Argument policies: how the argument positions of an operator are filled from the bank.
The type-directed policy offers every retained candidate of the right family; a
restricted one allows only some node kinds at the positions of some operators.
-/

namespace ExprSynth

/-- For some operators, the node kinds allowed at each argument position. -/
structure Restrictions where
  lookup : NodeKind → Option (List (List NodeKind))

namespace Restrictions

/-- No operator is restricted. -/
def none : Restrictions := ⟨fun _ => Option.none⟩

/-- Allows only the kinds of `positions` at the argument positions of `op`, replacing an
earlier restriction of `op`. -/
def restrict (r : Restrictions) (op : NodeKind) (positions : List (List NodeKind)) :
    Restrictions :=
  ⟨fun k => if k = op then some positions else r.lookup k⟩

/-- Products and comparisons may only combine bare variables and constants. -/
def standard : Restrictions :=
  let leaves := [NodeKind.variable, NodeKind.constant]
  (none.restrict .times [leaves, leaves]).restrict .lessThan [leaves, leaves]

end Restrictions

/-- How the argument positions of an operator are filled from the bank: by every
retained candidate of the right family, or, for restricted operators, only by those whose
node kind is allowed at the position. -/
inductive Policy where
  | typeDirected
  | restricted (r : Restrictions)

/-- The retained candidates of family `ty`, in bank order. -/
def Bank.poolOf (b : Bank) (ty : Ty) : List Candidate :=
  b.toList.filter (·.ty == ty)

/-- One pool of candidates per argument position of `op`. A restricted operator gets one
pool per position listed, and no more than it has arguments: with fewer pools than
arguments it builds nothing. -/
def Policy.pools (p : Policy) (op : Operator) (b : Bank) : List (List Candidate) :=
  match p with
  | .typeDirected => op.args.map b.poolOf
  | .restricted r =>
      match r.lookup op.kind with
      | Option.none => op.args.map b.poolOf
      | some positions =>
          (positions.zip op.args).map fun (allowed, ty) =>
            (b.poolOf ty).filter fun c => allowed.contains c.expr.kind

end ExprSynth
