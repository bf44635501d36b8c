import ExprSynth.Proofs.Compositional

/-! Evaluation of one expression. A well-sorted expression evaluates, under an environment
that binds its variables, to a value of its family, whatever the integers are. And
evaluation looks at a subexpression only through what it evaluates to, so two expressions
with the same result, value or error, can stand for each other in every context: on one
environment, and so on every example, where a candidate keeps its values and its success. -/
namespace ExprSynth

/-! ### Well-sorted expressions evaluate -/

theorem Env.exists_get?_of_contains {env : Env} {name : String}
    (h : env.contains name = true) : ∃ x, env.get? name = some x :=
  Option.isSome_iff_exists.mp h

/-- A well-sorted expression evaluates, under an environment that binds every variable it
reads, to a value of its family: it meets neither an unbound variable nor an operand of the
wrong family, and sums and products wrap around instead of failing. -/
theorem Expr.HasTy.eval_ok_of_bound {e : Expr} {ty : Ty} (h : e.HasTy ty) {env : Env}
    (hbound : ∀ name ∈ e.varNames, env.contains name = true) :
    ∃ v, e.eval env = .ok v ∧ v.ty = ty := by
  induction h with
  | const n => exact ⟨.int n, rfl, rfl⟩
  | falseLit => exact ⟨.bool false, rfl, rfl⟩
  | var name ty =>
      obtain ⟨x, hx⟩ := Env.exists_get?_of_contains (hbound name (by simp [Expr.varNames]))
      exact ⟨Value.ofBinding ty x, by simp [Expr.eval, hx], by simp⟩
  | binop _ _ ihl ihr =>
      obtain ⟨a, ha, hta⟩ := ihl fun n hn => hbound n (by simp [Expr.varNames, hn])
      obtain ⟨b, hb, htb⟩ := ihr fun n hn => hbound n (by simp [Expr.varNames, hn])
      obtain ⟨v, hv, htv⟩ := BinOp.apply_of_ty hta htb
      exact ⟨v, by simp [Expr.eval, ha, hb, hv, bind, Except.bind], htv⟩
  | not _ ih =>
      obtain ⟨a, ha, hta⟩ := ih hbound
      obtain ⟨v, hv, htv⟩ := Value.negate_of_ty hta
      exact ⟨v, by simp [Expr.eval, ha, hv, bind, Except.bind], htv⟩
  | ite _ _ _ ihc iht ihf =>
      obtain ⟨a, ha, hta⟩ := ihc fun n hn => hbound n (by simp [Expr.varNames, hn])
      obtain ⟨yes, hyes, htyes⟩ := iht fun n hn => hbound n (by simp [Expr.varNames, hn])
      obtain ⟨no, hno, htno⟩ := ihf fun n hn => hbound n (by simp [Expr.varNames, hn])
      -- the condition is a truth value, and only the branch it picks is evaluated
      cases a with
      | int n => cases hta
      | bool c =>
          cases c
          · exact ⟨no, by simp [Expr.eval, ha, hno, Value.expectBool, bind, Except.bind], htno⟩
          · exact ⟨yes, by simp [Expr.eval, ha, hyes, Value.expectBool, bind, Except.bind], htyes⟩

/-- A conditional read at the integers whose taken branch wraps around: `x + max` with `x`
bound to one is the least 64-bit integer, and the branch not taken is never evaluated. -/
theorem eval_ok_of_bound_wraps :
    let e : Expr := .ite (.var "b" .bool) (.binop .plus (.var "x" .int) (.const 9223372036854775807))
      (.var "x" .int)
    let env : Env := ⟨[("b", 1), ("x", 1)]⟩
    e.HasTy .int ∧ (∀ name ∈ e.varNames, env.contains name = true) ∧
      ∃ v, e.eval env = .ok v ∧ v.ty = .int := by
  intro e env
  have hty : e.HasTy .int :=
    .ite (.var "b" .bool) (@Expr.HasTy.binop .plus _ _ (.var "x" .int) (.const _)) (.var "x" .int)
  have hbound : ∀ name ∈ e.varNames, env.contains name = true := by
    simp [e, env, Expr.varNames, Env.contains, Env.get?]
  exact ⟨hty, hbound, hty.eval_ok_of_bound hbound⟩

/-! ### Contexts -/

/-- An expression with one subexpression left out: the hole, at any position under any
constructor, the untaken branch of a conditional and the right operand of `AND` included. -/
inductive Expr.Context where
  | hole
  | binopLeft (op : BinOp) (ctx : Expr.Context) (r : Expr)
  | binopRight (op : BinOp) (l : Expr) (ctx : Expr.Context)
  | not (ctx : Expr.Context)
  | iteCond (ctx : Expr.Context) (t f : Expr)
  | iteYes (c : Expr) (ctx : Expr.Context) (f : Expr)
  | iteNo (c t : Expr) (ctx : Expr.Context)
  deriving DecidableEq, Repr

/-- The expression a context makes of what fills its hole. -/
def Expr.Context.fill : Expr.Context → Expr → Expr
  | .hole, e => e
  | .binopLeft op ctx r, e => .binop op (ctx.fill e) r
  | .binopRight op l ctx, e => .binop op l (ctx.fill e)
  | .not ctx, e => .not (ctx.fill e)
  | .iteCond ctx t f, e => .ite (ctx.fill e) t f
  | .iteYes c ctx f, e => .ite c (ctx.fill e) f
  | .iteNo c t ctx, e => .ite c t (ctx.fill e)

/-! ### Equal results are interchangeable -/

/-- Evaluation is a congruence: two expressions that evaluate alike under `env` make every
context evaluate alike there. Each constructor evaluates its children and then combines
their results, never their text. -/
theorem Expr.Context.eval_fill_congr (ctx : Expr.Context) {env : Env} {a b : Expr}
    (h : a.eval env = b.eval env) : (ctx.fill a).eval env = (ctx.fill b).eval env := by
  induction ctx with
  | hole => exact h
  | binopLeft op ctx r ih => simp only [fill, Expr.eval, ih]
  | binopRight op l ctx ih => simp only [fill, Expr.eval, ih]
  | not ctx ih => simp only [fill, Expr.eval, ih]
  | iteCond ctx t f ih => simp only [fill, Expr.eval, ih]
  | iteYes c ctx f ih => simp only [fill, Expr.eval, ih]
  | iteNo c t ctx ih => simp only [fill, Expr.eval, ih]

theorem Expr.Context.evalAll_fill_congr (ctx : Expr.Context) {exs : List Example} {a b : Expr}
    (h : a.evalAll exs = b.evalAll exs) : (ctx.fill a).evalAll exs = (ctx.fill b).evalAll exs := by
  have hpoint : ∀ ex ∈ exs, a.eval ex.inputs = b.eval ex.inputs :=
    List.map_inj_left.mp h
  exact List.map_inj_left.mpr fun ex hex => ctx.eval_fill_congr (hpoint ex hex)

/-- The candidate of an expression, from the results of evaluating it on the examples. -/
theorem Candidate.ofExpr_eq_map (x : Expr) (ty : Ty) (exs : List Example) :
    ofExpr x ty exs = Except.map (ofOutputs x ty (exs.map (·.output))) ((x.evalAll exs).mapM id) := by
  simp only [ofExpr, Expr.evalAll, List.mapM_map, Function.id_comp]
  cases exs.mapM fun ex => x.eval ex.inputs <;> rfl

/-- Two expressions with the same results on the examples give the same candidate but for
its expression: the same values and the same success, or the same error. -/
theorem Candidate.ofExpr_of_evalAll_eq {x y : Expr} {ty : Ty} {exs : List Example}
    (h : x.evalAll exs = y.evalAll exs) :
    ofExpr y ty exs = (ofExpr x ty exs).map fun c => { c with expr := y } := by
  rw [ofExpr_eq_map, ofExpr_eq_map, ← h]
  cases (x.evalAll exs).mapM id <;> rfl

/-- Observational equivalence is a congruence for the evaluator. Under any environment, two
expressions with the same result, value or error, give every context the same result, even
where the hole is an untaken branch or an unchecked right operand. Hence on a list of
examples, putting in place of a subexpression one with the same results leaves the
candidate built from the whole with its values and its success. -/
theorem Expr.Context.eval_congruence (ctx : Expr.Context) {a b : Expr} :
    (∀ env, a.eval env = b.eval env → (ctx.fill a).eval env = (ctx.fill b).eval env) ∧
    ∀ (exs : List Example) (ty : Ty), a.evalAll exs = b.evalAll exs →
      Candidate.ofExpr (ctx.fill b) ty exs =
        (Candidate.ofExpr (ctx.fill a) ty exs).map fun c => { c with expr := ctx.fill b } :=
  ⟨fun _ h => ctx.eval_fill_congr h,
    fun _ _ h => Candidate.ofExpr_of_evalAll_eq (ctx.evalAll_fill_congr h)⟩

/-- An unbound variable and a sum over it fail alike, so the conjunction of `false` with
either fails alike too: both operands of `AND` are evaluated before either is checked. -/
theorem eval_congruence_unbound :
    let a : Expr := .var "y" .bool
    let b : Expr := .binop .plus (.var "y" .int) (.const 1)
    let ctx : Expr.Context := .binopRight .and .falseLit .hole
    a.eval Env.empty = b.eval Env.empty ∧
      (ctx.fill a).eval Env.empty = (ctx.fill b).eval Env.empty := by
  intro a b ctx
  have h : a.eval Env.empty = b.eval Env.empty := rfl
  exact ⟨h, (Expr.Context.eval_congruence ctx).1 Env.empty h⟩

end ExprSynth
