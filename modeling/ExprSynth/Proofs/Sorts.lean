import ExprSynth.Expr.Typing
import ExprSynth.Grammar
import ExprSynth.Candidate
import Mathlib.Data.List.Forall2

/-! Families of values and of candidates. Evaluation gives a well-sorted expression a value
of its family; resolving a grammar gives every operator a signature of the catalog; and
the candidate of a node over candidates of the families its signature asks for is built
without an evaluation error, with one value of its own family per example. -/
namespace ExprSynth

/-! ### Computations that fail or return -/

namespace Except

theorem bind_eq_ok {ε α β : Type} {m : Except ε α} {f : α → Except ε β} {b : β} :
    m >>= f = .ok b ↔ ∃ a, m = .ok a ∧ f a = .ok b := by
  cases m <;> simp [bind, Except.bind]

/-- Running a function over a list returns exactly when it returns on every item, and
then it returns the list of the answers. -/
theorem mapM_eq_ok {ε α β : Type} {f : α → Except ε β} {xs : List α} {ys : List β} :
    xs.mapM f = .ok ys ↔ List.Forall₂ (fun x y => f x = .ok y) xs ys := by
  induction xs generalizing ys with
  | nil => cases ys <;> simp [pure, Except.pure]
  | cons x xs ih =>
      cases hx : f x with
      | error e => cases ys <;> simp [hx, bind, Except.bind]
      | ok y =>
          cases hxs : xs.mapM f with
          | error e =>
              cases ys with
              | nil => simp [hx, hxs, bind, Except.bind]
              | cons y' ys =>
                  simp only [List.mapM_cons, hx, hxs, bind, Except.bind, reduceCtorEq,
                    List.forall₂_cons, Except.ok.injEq, false_iff, not_and]
                  intro _ hall
                  exact absurd (ih.mpr hall) (by simp [hxs])
          | ok ys' =>
              have hall := ih.mp hxs
              cases ys with
              | nil => simp [hx, hxs, bind, Except.bind, pure, Except.pure]
              | cons y' ys =>
                  simp only [List.mapM_cons, hx, hxs, bind, Except.bind, pure, Except.pure,
                    Except.ok.injEq, List.cons.injEq, List.forall₂_cons]
                  constructor
                  · rintro ⟨rfl, rfl⟩
                    exact ⟨rfl, hall⟩
                  · rintro ⟨rfl, hys⟩
                    exact ⟨rfl, Except.ok.inj (hxs.symm.trans (ih.mpr hys))⟩

theorem mapM_id_of_forall {ε α : Type} {P : α → Prop} {xs : List (Except ε α)}
    (h : ∀ x ∈ xs, ∃ a, x = .ok a ∧ P a) :
    ∃ ys, xs.mapM id = .ok ys ∧ ys.length = xs.length ∧ ∀ y ∈ ys, P y := by
  induction xs with
  | nil => exact ⟨[], rfl, rfl, by simp⟩
  | cons x xs ih =>
      obtain ⟨a, rfl, ha⟩ := h x (by simp)
      obtain ⟨ys, hys, hlen, hall⟩ := ih (fun x hx => h x (by simp [hx]))
      refine ⟨a :: ys, ?_, by simp [hlen], ?_⟩
      · simp [hys, bind, Except.bind, pure, Except.pure]
      · intro y hy
        rcases List.mem_cons.mp hy with rfl | hy
        · exact ha
        · exact hall y hy

end Except

/-! ### Families of values -/

/-- An operator applied to operands of its operand family returns a value of its result
family. -/
theorem BinOp.apply_of_ty {op : BinOp} {a b : Value} (ha : a.ty = op.operandTy)
    (hb : b.ty = op.operandTy) : ∃ v, op.apply a b = .ok v ∧ v.ty = op.resultTy := by
  cases op <;> cases a <;> cases b <;>
    simp_all [BinOp.apply, BinOp.operandTy, BinOp.resultTy, Value.ty, Value.expectInt,
      Value.expectBool, bind, Except.bind, pure, Except.pure]
  split <;> simp

theorem BinOp.ty_of_apply {op : BinOp} {a b v : Value} (h : op.apply a b = .ok v) :
    v.ty = op.resultTy := by
  cases op <;> cases a <;> cases b <;>
    simp [BinOp.apply, Value.expectInt, Value.expectBool, bind, Except.bind, pure,
      Except.pure] at h
  case plus.int.int | times.int.int | lessThan.int.int =>
    subst h
    rfl
  -- a conjunction whose left operand is false is false, whatever its right operand is
  case and.bool.int | and.bool.bool =>
    split at h <;> cases h <;> rfl

theorem Value.negate_of_ty {a : Value} (ha : a.ty = .bool) :
    ∃ v, a.negate = .ok v ∧ v.ty = .bool := by
  cases a with
  | int n => cases ha
  | bool b => exact ⟨.bool !b, rfl, rfl⟩

theorem Value.ty_of_negate {a v : Value} (h : a.negate = .ok v) : v.ty = .bool := by
  cases a with
  | int n => cases h
  | bool b =>
      cases h
      rfl

@[simp] theorem Value.ty_ofBinding (ty : Ty) (x : Int64) : (Value.ofBinding ty x).ty = ty := by
  cases ty <;> rfl

/-- Evaluation gives a well-sorted expression a value of its family: the typing relation
is sound for the evaluator, whatever the environment binds. -/
theorem Expr.HasTy.ty_of_eval {e : Expr} {ty : Ty} (h : e.HasTy ty) {env : Env} {v : Value}
    (hv : e.eval env = .ok v) : v.ty = ty := by
  induction h generalizing v with
  | const n =>
      cases hv
      rfl
  | falseLit =>
      cases hv
      rfl
  | var name ty =>
      simp only [Expr.eval] at hv
      split at hv
      · cases hv
        simp
      · cases hv
  | binop _ _ =>
      obtain ⟨a, -, hv⟩ := Except.bind_eq_ok.mp hv
      obtain ⟨b, -, hv⟩ := Except.bind_eq_ok.mp hv
      exact BinOp.ty_of_apply hv
  | not _ _ =>
      obtain ⟨a, -, hv⟩ := Except.bind_eq_ok.mp hv
      exact Value.ty_of_negate hv
  | ite _ _ _ _ ihYes ihNo =>
      obtain ⟨a, -, hv⟩ := Except.bind_eq_ok.mp hv
      obtain ⟨b, -, hv⟩ := Except.bind_eq_ok.mp hv
      cases b with
      | true => exact ihYes hv
      | false => exact ihNo hv

/-! ### Signatures of resolved operators -/

/-- `args → ret` is a signature the catalog gives `kind`: its fixed one, or the one it has
once placed at some family. -/
def NodeKind.HasSignature (kind : NodeKind) (args : List Ty) (ret : Ty) : Prop :=
  kind.fixedSignature? = some (args, ret) ∨
    kind.fixedSignature? = none ∧ ∃ ty, kind.placedSignature ty = (args, ret)

theorem Grammar.signature_of_resolveKind {g : Grammar} {kind : NodeKind} {op : Operator}
    (h : g.resolveKind kind = .ok (some op)) :
    op.kind = kind ∧ kind.HasSignature op.args op.ret := by
  unfold resolveKind at h
  split at h
  · cases h
  split at h
  · rename_i args ret hfixed
    cases h
    exact ⟨rfl, .inl hfixed⟩
  · rename_i hfixed
    obtain ⟨placed, -, h⟩ := Except.bind_eq_ok.mp h
    split at h
    · rename_i ty
      cases h
      exact ⟨rfl, .inr ⟨hfixed, ty, rfl⟩⟩
    · cases h

theorem Grammar.mem_resolveAll {g : Grammar} {kinds : List NodeKind} {ops : List Operator}
    (h : g.resolveAll kinds = .ok ops) {op : Operator} (hop : op ∈ ops) :
    ∃ kind ∈ kinds, g.resolveKind kind = .ok (some op) := by
  induction kinds generalizing ops with
  | nil =>
      cases h
      cases hop
  | cons kind rest ih =>
      obtain ⟨found, hfound, h⟩ := Except.bind_eq_ok.mp h
      obtain ⟨later, hlater, h⟩ := Except.bind_eq_ok.mp h
      cases h
      cases found with
      | none =>
          obtain ⟨k, hk, hres⟩ := ih hlater hop
          exact ⟨k, List.mem_cons_of_mem _ hk, hres⟩
      | some first =>
          rcases List.mem_cons.mp hop with rfl | hop
          · exact ⟨kind, List.mem_cons_self, hfound⟩
          · obtain ⟨k, hk, hres⟩ := ih hlater hop
            exact ⟨k, List.mem_cons_of_mem _ hk, hres⟩

/-- Every operator of a resolved grammar has a signature of the catalog. -/
theorem Grammar.signature_of_resolve {g : Grammar} {rg : ResolvedGrammar}
    (h : g.resolve = .ok rg) {op : Operator} (hop : op ∈ rg.ops) :
    op.kind.HasSignature op.args op.ret := by
  obtain ⟨variableTy, -, h⟩ := Except.bind_eq_ok.mp h
  obtain ⟨ops, hops, h⟩ := Except.bind_eq_ok.mp h
  cases h
  obtain ⟨kind, -, hres⟩ := g.mem_resolveAll hops hop
  obtain ⟨rfl, hsig⟩ := Grammar.signature_of_resolveKind hres
  exact hsig

/-- A node is built only from as many children as its signature has arguments. -/
theorem NodeKind.HasSignature.length_of_build {kind : NodeKind} {tys : List Ty} {ret : Ty}
    (hsig : kind.HasSignature tys ret) {es : List Expr} {e : Expr}
    (hb : kind.build es = .ok e) : es.length = tys.length := by
  cases kind <;>
    simp [HasSignature, fixedSignature?, placedSignature] at hsig <;>
    obtain ⟨rfl, rfl⟩ | ⟨ty, rfl, rfl⟩ := hsig <;>
    rcases es with _ | ⟨a, _ | ⟨b, _ | ⟨c, _ | ⟨d, rest⟩⟩⟩⟩ <;>
    simp [build] at hb ⊢

/-! ### Well-sorted candidates -/

/-- A candidate is well sorted for a list of examples: its expression is well sorted at
the family it was built at, and it has one value per example, each of that family. -/
structure Candidate.Sorted (exs : List Example) (c : Candidate) : Prop where
  hasTy : c.expr.HasTy c.ty
  length : c.outputs.length = exs.length
  values : ∀ v ∈ c.outputs, v.ty = c.ty

theorem exists_mem_of_mem_zipWith {α β γ : Type} {f : α → β → γ} {l : List α} {r : List β}
    {x : γ} (h : x ∈ List.zipWith f l r) : ∃ a ∈ l, ∃ b ∈ r, x = f a b := by
  induction l generalizing r with
  | nil => simp at h
  | cons a l ih =>
      cases r with
      | nil => simp at h
      | cons b r =>
          rcases List.mem_cons.mp h with rfl | h
          · exact ⟨a, by simp, b, by simp, rfl⟩
          · obtain ⟨a', ha', b', hb', rfl⟩ := ih h
            exact ⟨a', by simp [ha'], b', by simp [hb'], rfl⟩

theorem forall_mem_of_forall₂ {α β : Type} {R : α → β → Prop} {P : β → Prop}
    {xs : List α} {ys : List β} (h : List.Forall₂ R xs ys) (hR : ∀ x y, R x y → P y) :
    ∀ y ∈ ys, P y := by
  induction h with
  | nil => simp
  | cons hxy _ ih =>
      intro y hy
      rcases List.mem_cons.mp hy with rfl | hy
      · exact hR _ _ hxy
      · exact ih y hy

/-- Evaluating a well-sorted expression on every example gives a well-sorted candidate. -/
theorem Candidate.ofExpr_sorted {e : Expr} {ty : Ty} {exs : List Example} {c : Candidate}
    (hty : e.HasTy ty) (h : ofExpr e ty exs = .ok c) : c.Sorted exs := by
  obtain ⟨outputs, houts, h⟩ := Except.bind_eq_ok.mp h
  cases h
  have hall := Except.mapM_eq_ok.mp houts
  exact
    { hasTy := hty
      length := hall.length_eq.symm
      values := forall_mem_of_forall₂ hall fun _ _ hv => hty.ty_of_eval hv }

theorem Candidate.node?_binop (op : BinOp) (ty : Ty) (expected : List Value)
    (l r : Candidate) :
    node? op.kind ty expected [l, r] = some (do
      let outputs ← (List.zipWith op.apply l.outputs r.outputs).mapM id
      pure (ofOutputs (.binop op l.expr r.expr) ty expected outputs)) := by
  cases op <;> rfl

theorem Candidate.node?_not (ty : Ty) (expected : List Value) (a : Candidate) :
    node? .not ty expected [a] = some (do
      let outputs ← (a.outputs.map Value.negate).mapM id
      pure (ofOutputs (.not a.expr) ty expected outputs)) := rfl

/-- The value a conditional takes from its condition's value and its branches' values. -/
def Candidate.branchValue (a : Value) (b : Value × Value) : Except EvalError Value := do
  if ← a.expectBool .ifThenElse then pure b.1 else pure b.2

theorem Candidate.node?_ite (ty : Ty) (expected : List Value) (c t f : Candidate) :
    node? .ifThenElse ty expected [c, t, f] = some (do
      let outputs ← (List.zipWith branchValue c.outputs (List.zip t.outputs f.outputs)).mapM id
      pure (ofOutputs (.ite c.expr t.expr f.expr) ty expected outputs)) := rfl

/-- A binary node over well-sorted children of its operand family is built without error,
well sorted at its result family. -/
theorem Candidate.node?_binop_sorted {op : BinOp} {exs : List Example} {l r : Candidate}
    (hl : l.Sorted exs) (hr : r.Sorted exs) (hlty : l.ty = op.operandTy)
    (hrty : r.ty = op.operandTy) :
    ∃ c, node? op.kind op.resultTy (exs.map (·.output)) [l, r] = some (.ok c) ∧
      c.Sorted exs := by
  have hcols : ∀ x ∈ List.zipWith op.apply l.outputs r.outputs,
      ∃ v, x = .ok v ∧ v.ty = op.resultTy := by
    intro x hx
    obtain ⟨a, ha, b, hb, rfl⟩ := exists_mem_of_mem_zipWith hx
    exact BinOp.apply_of_ty ((hl.values a ha).trans hlty) ((hr.values b hb).trans hrty)
  obtain ⟨outputs, houts, hlen, hty⟩ := Except.mapM_id_of_forall hcols
  refine ⟨ofOutputs (.binop op l.expr r.expr) op.resultTy (exs.map (·.output)) outputs, ?_, ?_⟩
  · simp [node?_binop, houts, bind, Except.bind, pure, Except.pure]
  · exact
      { hasTy := .binop (hlty ▸ hl.hasTy) (hrty ▸ hr.hasTy)
        length := by simp [ofOutputs, hlen, hl.length, hr.length]
        values := hty }

theorem Candidate.node?_not_sorted {exs : List Example} {a : Candidate} (ha : a.Sorted exs)
    (haty : a.ty = .bool) :
    ∃ c, node? .not .bool (exs.map (·.output)) [a] = some (.ok c) ∧ c.Sorted exs := by
  have hcols : ∀ x ∈ a.outputs.map Value.negate, ∃ v, x = .ok v ∧ v.ty = .bool := by
    intro x hx
    obtain ⟨v, hv, rfl⟩ := List.mem_map.mp hx
    exact Value.negate_of_ty ((ha.values v hv).trans haty)
  obtain ⟨outputs, houts, hlen, hty⟩ := Except.mapM_id_of_forall hcols
  refine ⟨ofOutputs (.not a.expr) .bool (exs.map (·.output)) outputs, ?_, ?_⟩
  · simp [node?_not, houts, bind, Except.bind, pure, Except.pure]
  · exact
      { hasTy := .not (haty ▸ ha.hasTy)
        length := by simp [ofOutputs, hlen, ha.length]
        values := hty }

theorem Candidate.node?_ite_sorted {exs : List Example} {ty : Ty} {c t f : Candidate}
    (hc : c.Sorted exs) (ht : t.Sorted exs) (hf : f.Sorted exs) (hcty : c.ty = .bool)
    (htty : t.ty = ty) (hfty : f.ty = ty) :
    ∃ d, node? .ifThenElse ty (exs.map (·.output)) [c, t, f] = some (.ok d) ∧
      d.Sorted exs := by
  have hcols : ∀ x ∈ List.zipWith branchValue c.outputs (List.zip t.outputs f.outputs),
      ∃ v, x = .ok v ∧ v.ty = ty := by
    intro x hx
    obtain ⟨a, ha, ⟨y, z⟩, hyz, rfl⟩ := exists_mem_of_mem_zipWith hx
    have hy : y.ty = ty := (ht.values y (List.of_mem_zip hyz).1).trans htty
    have hz : z.ty = ty := (hf.values z (List.of_mem_zip hyz).2).trans hfty
    cases a with
    | int n => cases (hc.values _ ha).trans hcty
    | bool b => cases b <;> simp [branchValue, Value.expectBool, bind, Except.bind, pure,
        Except.pure, hy, hz]
  obtain ⟨outputs, houts, hlen, hty⟩ := Except.mapM_id_of_forall hcols
  refine ⟨ofOutputs (.ite c.expr t.expr f.expr) ty (exs.map (·.output)) outputs, ?_, ?_⟩
  · simp [node?_ite, houts, bind, Except.bind, pure, Except.pure]
  · exact
      { hasTy := .ite (hcty ▸ hc.hasTy) (htty ▸ ht.hasTy) (hfty ▸ hf.hasTy)
        length := by simp [ofOutputs, hlen, hc.length, ht.length, hf.length]
        values := hty }

theorem Candidate.node?_eq_none {kind : NodeKind} {ty : Ty} {expected : List Value}
    {args : List Candidate} {err : BuildError} (hb : kind.build (args.map (·.expr)) = .error err) :
    node? kind ty expected args = none := by
  simp [node?, hb]

/-- The signature of a binary kind is that of its operator. -/
theorem NodeKind.HasSignature.binop {op : BinOp} {tys : List Ty} {ret : Ty}
    (hsig : op.kind.HasSignature tys ret) :
    tys = [op.operandTy, op.operandTy] ∧ ret = op.resultTy := by
  cases op <;> simp [HasSignature, fixedSignature?, BinOp.kind] at hsig <;>
    obtain ⟨rfl, rfl⟩ := hsig <;> exact ⟨rfl, rfl⟩

section NodeOfSignature

variable {exs : List Example} {args : List Candidate} {tys : List Ty} {ret : Ty}

/-- The children of a node in the families of a signature, position by position. -/
def ChildrenSorted (exs : List Example) (args : List Candidate) (tys : List Ty) : Prop :=
  ∀ i (h : i < args.length), ∀ ty, tys[i]? = some ty → args[i].Sorted exs ∧ args[i].ty = ty

theorem Candidate.node?_binop_of_signature (op : BinOp) (hsig : op.kind.HasSignature tys ret)
    (hlen : args.length = tys.length) (hchild : ChildrenSorted exs args tys) :
    ∃ c, node? op.kind ret (exs.map (·.output)) args = some (.ok c) ∧ c.Sorted exs := by
  obtain ⟨rfl, rfl⟩ := hsig.binop
  obtain ⟨l, r, rfl⟩ := List.length_eq_two.mp hlen
  obtain ⟨hl, hlty⟩ := hchild 0 (by simp) _ rfl
  obtain ⟨hr, hrty⟩ := hchild 1 (by simp) _ rfl
  exact node?_binop_sorted hl hr hlty hrty

/-- The candidate of a node of a catalog signature over well-sorted children of the
families it asks for is built without error and well sorted; over children of another
number it is not built at all. -/
theorem Candidate.node?_sorted {kind : NodeKind} (hsig : kind.HasSignature tys ret)
    (hargs : ∀ i (h : i < args.length), args[i].Sorted exs ∧ tys[i]? = some args[i].ty) :
    node? kind ret (exs.map (·.output)) args = none ∨
      ∃ c, node? kind ret (exs.map (·.output)) args = some (.ok c) ∧ c.Sorted exs := by
  cases hb : kind.build (args.map (·.expr)) with
  | error err => exact .inl (node?_eq_none hb)
  | ok e =>
      right
      have hlen : args.length = tys.length := by simpa using hsig.length_of_build hb
      have hchild : ChildrenSorted exs args tys := by
        intro i h ty hty
        obtain ⟨hs, hi⟩ := hargs i h
        exact ⟨hs, Option.some.inj (hi.symm.trans hty)⟩
      cases kind
      case plus => exact node?_binop_of_signature .plus hsig hlen hchild
      case times => exact node?_binop_of_signature .times hsig hlen hchild
      case lessThan => exact node?_binop_of_signature .lessThan hsig hlen hchild
      case and => exact node?_binop_of_signature .and hsig hlen hchild
      case not =>
        simp [NodeKind.HasSignature, NodeKind.fixedSignature?] at hsig
        obtain ⟨rfl, rfl⟩ := hsig
        obtain ⟨a, rfl⟩ := List.length_eq_one_iff.mp hlen
        obtain ⟨ha, haty⟩ := hchild 0 (by simp) _ rfl
        exact node?_not_sorted ha haty
      case ifThenElse =>
        simp [NodeKind.HasSignature, NodeKind.fixedSignature?, NodeKind.placedSignature] at hsig
        obtain ⟨ty, rfl, rfl⟩ := hsig
        obtain ⟨c, t, f, rfl⟩ := List.length_eq_three.mp hlen
        obtain ⟨hc, hcty⟩ := hchild 0 (by simp) _ rfl
        obtain ⟨ht, htty⟩ := hchild 1 (by simp) _ rfl
        obtain ⟨hf, hfty⟩ := hchild 2 (by simp) _ rfl
        exact node?_ite_sorted hc ht hf hcty htty hfty
      -- the terminals are never built from children
      case constant | falseLit | «variable» => simp [NodeKind.build] at hb

end NodeOfSignature

end ExprSynth
