import ExprSynth.Proofs.Sorts

/-! Values on the examples. Evaluation on a list of examples is compositional: the values
of a node are a function of the values of its children, the one `Candidate.nodeOutputs`
computes, laziness of `AND` and of conditionals included. So a candidate built from
faithful candidates, whose values are what their expressions evaluate to, is faithful,
and two nodes of one kind over children with the same values have the same values. -/
namespace ExprSynth

/-- The results of evaluating an expression on each example, in order. -/
def Expr.evalAll (x : Expr) (exs : List Example) : List (Except EvalError Value) :=
  exs.map fun ex => x.eval ex.inputs

/-- An expression reproduces the examples when it evaluates to the output of each. -/
def Expr.Reproduces (x : Expr) (exs : List Example) : Prop :=
  ∀ ex ∈ exs, x.eval ex.inputs = .ok ex.output

theorem Expr.reproduces_iff {x : Expr} {exs : List Example} :
    x.Reproduces exs ↔ x.evalAll exs = (exs.map (·.output)).map .ok := by
  simp [Reproduces, evalAll, List.map_inj_left]

namespace Except

/-- Running a function over a list returns a list of answers exactly when mapping it
gives those answers, each returned. -/
theorem mapM_eq_ok_iff_map {ε α β : Type} {f : α → Except ε β} {xs : List α} {ys : List β} :
    xs.mapM f = .ok ys ↔ xs.map f = ys.map .ok := by
  rw [mapM_eq_ok, ← List.forall₂_eq_eq_eq, List.forall₂_map_left_iff,
    List.forall₂_map_right_iff]

end Except

section Columns

variable {α β γ ε : Type} {xs : List α}

theorem map_eq_map_bind {g : α → Except ε β} {as : List β} (hg : xs.map g = as.map .ok)
    (F : β → Except ε γ) : as.map F = xs.map fun x => g x >>= F := by
  induction xs generalizing as with
  | nil =>
      cases as <;> simp at hg
      rfl
  | cons x xs ih =>
      cases as with
      | nil => simp at hg
      | cons a as =>
          simp only [List.map_cons, List.cons.injEq] at hg
          simp [hg.1, ih hg.2, bind, Except.bind]

/-- Values computed column by column from the values of two computations that return on
every item are the values of the computation that runs both and combines them. -/
theorem zipWith_eq_map_bind {g h : α → Except ε β} {as bs : List β}
    (hg : xs.map g = as.map .ok) (hh : xs.map h = bs.map .ok) (F : β → β → Except ε γ) :
    List.zipWith F as bs = xs.map fun x => g x >>= fun a => h x >>= fun b => F a b := by
  induction xs generalizing as bs with
  | nil =>
      cases as <;> simp at hg
      rfl
  | cons x xs ih =>
      cases as with
      | nil => simp at hg
      | cons a as =>
          cases bs with
          | nil => simp at hh
          | cons b bs =>
              simp only [List.map_cons, List.cons.injEq] at hg hh
              simp [hg.1, hh.1, ih hg.2 hh.2, bind, Except.bind]

/-- The same for a computation that runs one of three and then chooses, lazily, between
the values of the other two. -/
theorem zipWith_zip_eq_map_bind {g h k : α → Except ε β} {as bs cs : List β}
    (hg : xs.map g = as.map .ok) (hh : xs.map h = bs.map .ok) (hk : xs.map k = cs.map .ok)
    (G : β → Except ε β → Except ε β → Except ε β) :
    List.zipWith (fun a p => G a (.ok p.1) (.ok p.2)) as (List.zip bs cs) =
      xs.map fun x => g x >>= fun a => G a (h x) (k x) := by
  induction xs generalizing as bs cs with
  | nil =>
      cases as <;> simp at hg
      rfl
  | cons x xs ih =>
      cases as with
      | nil => simp at hg
      | cons a as =>
          cases bs with
          | nil => simp at hh
          | cons b bs =>
              cases cs with
              | nil => simp at hk
              | cons c cs =>
                  simp only [List.map_cons, List.cons.injEq] at hg hh hk
                  simp [hg.1, hh.1, hk.1, ih hg.2 hh.2 hk.2, bind, Except.bind]

end Columns

/-- A node is built as a binary node, a negation or a conditional, over exactly the
children it was given. -/
theorem NodeKind.build_cases {kind : NodeKind} {children : List Expr} {x : Expr}
    (hb : kind.build children = .ok x) :
    (∃ op l r, kind = op.kind ∧ children = [l, r] ∧ x = .binop op l r) ∨
    (∃ a, kind = .not ∧ children = [a] ∧ x = .not a) ∨
    (∃ c t f, kind = .ifThenElse ∧ children = [c, t, f] ∧ x = .ite c t f) := by
  cases kind <;>
    rcases children with _ | ⟨a, _ | ⟨b, _ | ⟨c, _ | ⟨d, rest⟩⟩⟩⟩ <;>
    simp only [build, reduceCtorEq, Except.ok.injEq] at hb <;>
    subst hb
  case plus => exact .inl ⟨.plus, a, b, rfl, rfl, rfl⟩
  case times => exact .inl ⟨.times, a, b, rfl, rfl, rfl⟩
  case lessThan => exact .inl ⟨.lessThan, a, b, rfl, rfl, rfl⟩
  case and => exact .inl ⟨.and, a, b, rfl, rfl, rfl⟩
  case not => exact .inr (.inl ⟨a, rfl, rfl, rfl⟩)
  case ifThenElse => exact .inr (.inr ⟨a, b, c, rfl, rfl, rfl⟩)

theorem Candidate.nodeOutputs_binop (op : BinOp) (l r : List Value) :
    nodeOutputs op.kind [l, r] = some (List.zipWith op.apply l r) := by
  cases op <;> rfl

/-- The values of a node, from the values of its children: whenever a node of kind `kind`
is built from children that evaluate to `vss` on the examples, the node evaluates to what
`Candidate.nodeOutputs` computes from `vss`. -/
theorem Candidate.nodeOutputs_of_build {exs : List Example} {kind : NodeKind}
    {children : List Expr} {x : Expr} (hb : kind.build children = .ok x)
    {vss : List (List Value)}
    (hvals : List.Forall₂ (fun (y : Expr) vs => y.evalAll exs = vs.map .ok) children vss) :
    nodeOutputs kind vss = some (x.evalAll exs) := by
  rcases NodeKind.build_cases hb with ⟨op, l, r, rfl, rfl, rfl⟩ | ⟨a, rfl, rfl, rfl⟩ |
    ⟨c, t, f, rfl, rfl, rfl⟩
  · obtain _ | ⟨hl, _ | ⟨hr, _ | _⟩⟩ := hvals
    rw [nodeOutputs_binop, zipWith_eq_map_bind hl hr op.apply]
    rfl
  · obtain _ | ⟨ha, _ | _⟩ := hvals
    exact congrArg some (map_eq_map_bind ha Value.negate)
  · obtain _ | ⟨hc, _ | ⟨ht, _ | ⟨hf, _ | _⟩⟩⟩ := hvals
    -- the branch not taken is never looked at, as evaluation skips it
    exact congrArg some (zipWith_zip_eq_map_bind hc ht hf
      fun a yes no => a.expectBool .ifThenElse >>= fun b => if b then yes else no)

/-- A candidate is faithful to the examples when its values are what its expression
evaluates to on each of them, and it succeeds exactly when they are the outputs. -/
structure Candidate.Faithful (exs : List Example) (c : Candidate) : Prop where
  evals : c.expr.evalAll exs = c.outputs.map .ok
  success : c.success = decide (c.outputs = exs.map (·.output))

/-- A faithful candidate that succeeds has an expression that reproduces the examples. -/
theorem Candidate.Faithful.reproduces {exs : List Example} {c : Candidate} (hf : c.Faithful exs)
    (hs : c.success = true) : c.expr.Reproduces exs := by
  have hout : c.outputs = exs.map (·.output) := by simpa [hf.success] using hs
  rw [Expr.reproduces_iff, hf.evals, hout]

theorem Candidate.ofExpr_faithful {x : Expr} {ty : Ty} {exs : List Example} {c : Candidate}
    (h : ofExpr x ty exs = .ok c) : c.Faithful exs := by
  obtain ⟨outputs, houts, h⟩ := Except.bind_eq_ok.mp h
  cases h
  exact ⟨Except.mapM_eq_ok_iff_map.mp houts, rfl⟩

theorem Candidate.forall₂_evalAll {exs : List Example} {args : List Candidate}
    (hargs : ∀ a ∈ args, a.Faithful exs) :
    List.Forall₂ (fun (y : Expr) vs => y.evalAll exs = vs.map .ok)
      (args.map (·.expr)) (args.map (·.outputs)) := by
  rw [List.forall₂_map_left_iff, List.forall₂_map_right_iff, List.forall₂_same]
  exact fun a ha => (hargs a ha).evals

/-- The candidate of a node over faithful candidates is faithful, its expression is the
node over theirs, and its family the one asked for. -/
theorem Candidate.node?_faithful {kind : NodeKind} {ty : Ty} {exs : List Example}
    {args : List Candidate} {c : Candidate} (hargs : ∀ a ∈ args, a.Faithful exs)
    (h : node? kind ty (exs.map (·.output)) args = some (.ok c)) :
    c.Faithful exs ∧ kind.build (args.map (·.expr)) = .ok c.expr ∧ c.ty = ty := by
  unfold node? at h
  split at h
  · rename_i x results hb hres
    have hx : results = x.evalAll exs :=
      Option.some.inj (hres.symm.trans (nodeOutputs_of_build hb (forall₂_evalAll hargs)))
    obtain ⟨outputs, houts, hc⟩ := Except.bind_eq_ok.mp (Option.some.inj h)
    cases hc
    rw [Except.mapM_eq_ok_iff_map, List.map_id, hx] at houts
    exact ⟨⟨houts, rfl⟩, hb, rfl⟩
  · cases h

end ExprSynth
