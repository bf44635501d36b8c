import ExprSynth.Proofs.Completeness

/-! Soundness of synthesis, under either policy. Every candidate a search keeps, the winner
included, is faithful to the examples, is an expression of the language of the grammar
over its terminals at its family, and, under a restricted policy, has only nodes the
restrictions allow: the terminals are, and a node built from a tuple of the pools of such
candidates is too, since the pools take their candidates from the bank, by family, and,
for a restricted operator, by the kinds allowed at each position. The winner succeeds, so
the expression found reproduces every example. -/
namespace ExprSynth

/-! ### Nodes allowed by restrictions -/

/-- The children of a node, left to right; terminals have none. -/
def Expr.children : Expr → List Expr
  | .binop _ l r => [l, r]
  | .not e => [e]
  | .ite c t f => [c, t, f]
  | .const _ | .var .. | .falseLit => []

/-- The restrictions allow a node of kind `kind` over `children` when its kind is not
restricted, or has at least as many positions as children, each child's kind listed at its
position. -/
def Restrictions.Allows (r : Restrictions) (kind : NodeKind) (children : List Expr) : Prop :=
  ∀ positions, r.lookup kind = some positions →
    children.length ≤ positions.length ∧
      ∀ (i : Nat) (child : Expr) (allowed : List NodeKind), children[i]? = some child →
        positions[i]? = some allowed → child.kind ∈ allowed

/-- Every node of the expression is allowed by the restrictions. -/
inductive Expr.Respects (r : Restrictions) : Expr → Prop where
  | node {x : Expr} (allows : r.Allows x.kind x.children)
      (children : ∀ y ∈ x.children, y.Respects r) : x.Respects r

theorem Restrictions.allows_nil (r : Restrictions) (kind : NodeKind) : r.Allows kind [] :=
  fun _ _ => ⟨Nat.zero_le _, fun _ _ _ h => by simp at h⟩

theorem NodeKind.kind_children_of_build {kind : NodeKind} {children : List Expr} {x : Expr}
    (hb : kind.build children = .ok x) : x.kind = kind ∧ x.children = children := by
  rcases build_cases hb with ⟨op, l, r, rfl, rfl, rfl⟩ | ⟨a, rfl, rfl, rfl⟩ |
    ⟨c, t, f, rfl, rfl, rfl⟩ <;> exact ⟨rfl, rfl⟩

/-- The pool at a position of a restricted operator keeps only candidates whose kind is
allowed there, and there are no more pools than positions. -/
theorem Policy.restricted_pools {r : Restrictions} {op : Operator} {b : Bank}
    {positions : List (List NodeKind)} (hr : r.lookup op.kind = some positions) :
    ((Policy.restricted r).pools op b).length ≤ positions.length ∧
      ∀ (i : Nat) (pool : List Candidate), ((Policy.restricted r).pools op b)[i]? = some pool →
        ∀ a ∈ pool, ∃ allowed, positions[i]? = some allowed ∧ a.expr.kind ∈ allowed := by
  simp only [Policy.pools, hr]
  refine ⟨?_, ?_⟩
  · simp only [List.length_map, List.length_zip]
    exact Nat.min_le_left _ _
  intro i pool hpool a ha
  rw [List.getElem?_map] at hpool
  obtain ⟨⟨allowed, ty⟩, hzip, rfl⟩ := Option.map_eq_some_iff.mp hpool
  exact ⟨allowed, (List.getElem?_zip_eq_some.mp hzip).1, by simpa using (List.mem_filter.mp ha).2⟩

theorem forall₂_of_getElem? {α β : Type} {R : α → β → Prop} {l₁ : List α} {l₂ : List β}
    (h : List.Forall₂ R l₁ l₂) {i : Nat} {a : α} {b : β} (ha : l₁[i]? = some a)
    (hb : l₂[i]? = some b) : R a b := by
  induction h generalizing i with
  | nil => simp at ha
  | cons hr _ ih =>
      cases i with
      | zero =>
          simp only [List.getElem?_cons_zero, Option.some.injEq] at ha hb
          subst ha hb
          exact hr
      | succ i => exact ih (by simpa using ha) (by simpa using hb)

/-- A node built from a tuple of the pools of a restricted operator is allowed. -/
theorem Policy.allows_of_mem_tuples {r : Restrictions} {op : Operator} {b : Bank}
    {args : List Candidate} (hargs : args ∈ tuples ((Policy.restricted r).pools op b)) :
    r.Allows op.kind (args.map (·.expr)) := by
  intro positions hr
  obtain ⟨hlen, hpools⟩ := Policy.restricted_pools (b := b) hr
  have hall := mem_tuples.mp hargs
  refine ⟨by simpa [hall.length_eq] using hlen, ?_⟩
  intro i child allowed hchild hallowed
  rw [List.getElem?_map] at hchild
  obtain ⟨a, ha, rfl⟩ := Option.map_eq_some_iff.mp hchild
  have hi : i < ((Policy.restricted r).pools op b).length :=
    hall.length_eq ▸ (List.getElem?_eq_some_iff.mp ha).1
  obtain ⟨allowed', hallowed', hkind⟩ := hpools i _ (List.getElem?_eq_getElem hi) a
    (forall₂_of_getElem? hall ha (List.getElem?_eq_getElem hi))
  rw [hallowed] at hallowed'
  cases hallowed'
  exact hkind

/-! ### Sound candidates -/

/-- A candidate is sound for a search over the grammar `g`, the terminals `t`, the policy
`policy` and the examples `exs`: it is sorted and faithful, its expression is in the
language at its family, and it respects the restrictions of a restricted policy. -/
structure Candidate.Sound (g : ResolvedGrammar) (t : Terminals) (policy : Policy)
    (exs : List Example) (c : Candidate) : Prop where
  sorted : c.Sorted exs
  faithful : c.Faithful exs
  derives : Derives g t c.expr c.ty
  respects : ∀ r, policy = .restricted r → c.expr.Respects r

theorem NodeKind.length_pos_of_build {kind : NodeKind} {children : List Expr} {x : Expr}
    (hb : kind.build children = .ok x) : 0 < children.length := by
  rcases build_cases hb with ⟨op, l, r, -, rfl, -⟩ | ⟨a, -, rfl, -⟩ | ⟨c, t, f, -, rfl, -⟩ <;>
    simp

theorem Expr.respects_of_build {r : Restrictions} {kind : NodeKind} {children : List Expr}
    {x : Expr} (hb : kind.build children = .ok x) (hallows : r.Allows kind children)
    (hchildren : ∀ y ∈ children, y.Respects r) : x.Respects r := by
  obtain ⟨hkind, hkids⟩ := NodeKind.kind_children_of_build hb
  refine .node ?_ ?_
  · rw [hkind, hkids]
    exact hallows
  · rw [hkids]
    exact hchildren

theorem DerivesAll.of_getElem? {g : ResolvedGrammar} {t : Terminals} :
    ∀ {es : List Expr} {tys : List Ty}, es.length = tys.length →
      (∀ (i : Nat) (e : Expr) (ty : Ty), es[i]? = some e → tys[i]? = some ty →
        Derives g t e ty) →
      DerivesAll g t es tys
  | [], [], _, _ => .nil
  | e :: es, ty :: tys, hlen, h =>
      .cons (h 0 e ty rfl rfl)
        (of_getElem? (by simpa using hlen) fun i e ty he hty => h (i + 1) e ty he hty)
  | [], _ :: _, hlen, _ => absurd hlen (by simp)
  | _ :: _, [], hlen, _ => absurd hlen (by simp)

section Built

variable {g : ResolvedGrammar} {t : Terminals} {policy : Policy} {exs : List Example}

/-- A candidate built from a tuple of the pools of a bank of sound candidates, by an
operator of the grammar, is sound. -/
theorem built_sound {op : Operator} {b : Bank} {args : List Candidate} {c : Candidate}
    (hop : op ∈ g.ops) (hsig : op.kind.HasSignature op.args op.ret)
    (hb : b.All (Candidate.Sound g t policy exs)) (hargs : args ∈ tuples (policy.pools op b))
    (hnode : Candidate.node? op.kind op.ret (exs.map (·.output)) args = some (.ok c)) :
    c.Sound g t policy exs := by
  have hmem := Policy.mem_toList_of_mem_tuples hargs
  obtain ⟨hsorted, hfaithful⟩ := Enumerator.built_accurate hsig
    (hb.imp fun _ h => ⟨h.sorted, h.faithful⟩) hargs hnode
  obtain ⟨-, hbuild, hty⟩ :=
    Candidate.node?_faithful (fun a ha => (hb.1 a (hmem a ha)).faithful) hnode
  have hlen : (args.map (·.expr)).length = op.args.length := hsig.length_of_build hbuild
  refine ⟨hsorted, hfaithful, ?_, ?_⟩
  · -- the children are in the language at the families the signature asks for
    rw [hty]
    refine .node hop ?_ hbuild (DerivesAll.of_getElem? hlen ?_)
    · have := NodeKind.length_pos_of_build hbuild
      simp only [Operator.arity, ← hlen]
      exact this
    · intro i e ty he hty'
      rw [List.getElem?_map] at he
      obtain ⟨a, ha, rfl⟩ := Option.map_eq_some_iff.mp he
      have hi : i < args.length := (List.getElem?_eq_some_iff.mp ha).1
      have ha' : args[i] = a := by simpa [List.getElem?_eq_getElem hi] using ha
      obtain ⟨hin, hpos⟩ := Policy.mem_tuples_pools hargs i hi
      rw [ha'] at hin hpos
      rw [hpos] at hty'
      cases hty'
      exact (hb.1 a hin).derives
  · intro r hr
    refine Expr.respects_of_build hbuild ?_ ?_
    · subst hr
      exact Policy.allows_of_mem_tuples hargs
    · intro y hy
      obtain ⟨a, ha, rfl⟩ := List.mem_map.mp hy
      exact (hb.1 a (hmem a ha)).respects r hr

theorem seeds_sound {x : Expr × Ty} (hx : x ∈ Enumerator.seeds t) {c : Candidate}
    (hc : Candidate.ofExpr x.1 x.2 exs = .ok c) : c.Sound g t policy exs := by
  have hsorted := Candidate.ofExpr_sorted (Enumerator.hasTy_of_mem_seeds hx) hc
  have hfaithful := Candidate.ofExpr_faithful hc
  obtain ⟨outputs, -, hout⟩ := Except.bind_eq_ok.mp hc
  cases hout
  -- each terminal is in the language, and has no children to restrict
  have hterminal : Derives g t x.1 x.2 ∧ x.1.children = [] := by
    simp only [Enumerator.seeds, List.mem_append, List.mem_map, List.mem_singleton] at hx
    rcases hx with (⟨n, hn, rfl⟩ | ⟨v, hv, rfl⟩) | rfl
    · exact ⟨.const hn, rfl⟩
    · exact ⟨.var hv, rfl⟩
    · exact ⟨.falseLit, rfl⟩
  refine ⟨hsorted, hfaithful, hterminal.1, fun r _ => .node ?_ ?_⟩
  · exact hterminal.2 ▸ r.allows_nil _
  · simp [Candidate.ofOutputs, hterminal.2]

end Built

/-! ### Runs of the search -/

/-- An insertion sets a winner only from a candidate that succeeds. -/
theorem Bank.winner_success_insert {b : Bank} (h : ∀ w, b.winner = some w → w.success = true)
    (c : Candidate) : ∀ w, (b.insert c).1.winner = some w → w.success = true := by
  intro w hw
  unfold insert at hw
  split at hw
  · exact h w hw
  split at hw
  · rename_i hs
    cases hw
    exact hs
  split at hw
  · exact h w (by simpa using hw)
  split at hw
  · exact h w (by simpa using hw)
  split at hw
  · exact h w hw
  · exact h w (by simpa using hw)

theorem Bank.Reaches.winner_success {b b' : Bank} (run : b.Reaches b')
    (h : ∀ w, b.winner = some w → w.success = true) :
    ∀ w, b'.winner = some w → w.success = true := by
  induction run with
  | refl => exact h
  | insert _ c ih => exact winner_success_insert ih c

namespace Enumerator

theorem addLayer_reaches {e e' : Enumerator} (h : e.addLayer = .ok e') :
    e.bank.Reaches e'.bank :=
  addLayer_invariant (I := fun s => e.bank.Reaches s.1)
    (fun _ _ hs _ _ hturn => hs.trans (turn_reaches hturn)) (.refl _) h

/-- What every search over the grammar `g`, the terminals `t`, the policy `policy` and
the examples `exs` keeps: the operators of its grammar have catalog signatures, its bank
keeps sound candidates only, and its winner, if any, succeeds. -/
structure Sound (g : ResolvedGrammar) (t : Terminals) (policy : Policy) (exs : List Example)
    (e : Enumerator) : Prop where
  grammar : e.grammar = g
  policy_eq : e.policy = policy
  examples : e.examples = exs
  signed : ∀ op ∈ g.ops, op.kind.HasSignature op.args op.ret
  bank : e.bank.All (Candidate.Sound g t policy exs)
  winner : ∀ w, e.bank.winner = some w → w.success = true

variable {g : ResolvedGrammar} {t : Terminals} {policy : Policy} {exs : List Example}

theorem Sound.step {e e' : Enumerator} {phase : Phase} (hinv : e.Sound g t policy exs)
    (h : e.step = .ok (e', phase)) : e'.Sound g t policy exs := by
  rcases step_cases h with ⟨-, rfl⟩ | ⟨-, e₁, h₁, rfl⟩
  · exact hinv
  obtain ⟨hg, hx, hp, -, -⟩ := addLayer_fields h₁
  -- every turn inserts only candidates built from its pools, which are sound
  have hbank := addLayer_invariant (I := fun s => s.1.All (Candidate.Sound g t policy exs))
    (fun s s' hs op hop hturn => by
      refine turn_all ?_ hs hturn
      intro args hargs c hnode
      rw [hinv.grammar] at hop
      rw [hinv.policy_eq] at hargs
      rw [expected, hinv.examples] at hnode
      exact built_sound hop (hinv.signed op hop) hs hargs hnode)
    hinv.bank h₁
  exact ⟨hg.trans hinv.grammar, hp.trans hinv.policy_eq, hx.trans hinv.examples, hinv.signed,
    hbank, (addLayer_reaches h₁).winner_success hinv.winner⟩

theorem stepWhile_sound :
    ∀ {n : Nat} {e e' : Enumerator}, e.Sound g t policy exs → stepWhile n e = .ok e' →
      e'.Sound g t policy exs
  | 0, e, e', hinv, h => by
      unfold stepWhile at h
      cases h
      exact hinv
  | n + 1, e, e', hinv, h => by
      unfold stepWhile at h
      split at h
      · obtain ⟨⟨e₁, phase⟩, hstep, h⟩ := Except.bind_eq_ok.mp h
        exact stepWhile_sound (hinv.step hstep) h
      · cases h
        exact hinv

theorem start_sound {gr : Grammar} {maxDepth : Nat} {tb : TieBreak} {e : Enumerator}
    (hg : gr.resolve = .ok g) (h : start g t exs maxDepth policy tb = .ok e) :
    e.Sound g t policy exs := by
  obtain ⟨-, rfl⟩ := start_eq h
  refine ⟨rfl, rfl, rfl, fun op hop => Grammar.signature_of_resolve hg hop, ?_, ?_⟩
  · apply Bank.insertAllFrom_all
    · rintro ⟨expr, ty⟩ hx c hc
      exact seeds_sound hx hc
    · exact ⟨by simp [Bank.toList, Bank.empty], by simp [Bank.empty]⟩
  · exact (Bank.reaches_insertAll _ _ _).winner_success (by simp [Bank.empty])

end Enumerator

/-- Soundness of synthesis, under the type-directed policy and under any restrictions,
for every tie break. When the synthesis returns an expression, it reproduces every
example, it is in the language of the problem's resolved grammar over its terminals, and
under a restricted policy every node of it is allowed by the restrictions. -/
theorem synthesis_sound {p : Problem} {policy : Policy} {tb : TieBreak} {s : Synthesis}
    {rg : ResolvedGrammar} {x : Expr} (h : synthesize p policy tb = .ok s)
    (hg : p.grammar.resolve = .ok rg) (hfound : s.outcome = .found x) :
    x.Reproduces p.examples ∧ (∃ ty, Derives rg (p.terminals rg) x ty) ∧
      ∀ r, policy = .restricted r → x.Respects r := by
  obtain ⟨rg', e, e', -, hg', hstart, hrun, rfl⟩ := synthesize_ok h
  rw [hg] at hg'
  cases hg'
  have hfinal := Enumerator.stepWhile_sound (Enumerator.start_sound hg hstart) hrun
  -- the expression found is the winner's
  cases hw : e'.bank.winner with
  | none => simp [hw] at hfound
  | some w =>
      simp only [hw, Option.map_some, Option.elim_some, Outcome.found.injEq] at hfound
      subst hfound
      have hsound := hfinal.bank.2 w hw
      exact ⟨hsound.faithful.reproduces (hfinal.winner w hw), ⟨w.ty, hsound.derives⟩,
        hsound.respects⟩

/-- Over a variable `x` with sums and products, the constant one and the examples
`x = 2 ↦ 5` and `x = 3 ↦ 10`, the search under the standard restrictions builds two layers
and returns `1 + x * x`. Its product is a restricted node: the expression reproduces both
examples, is in the language, and both operands of the product are of the kinds the
restrictions allow. -/
theorem synthesis_sound_square :
    let p : Problem := ⟨3, ⟨[.variable, .plus, .times], []⟩, ["x"], [1],
      [⟨⟨[("x", 2)]⟩, .int 5⟩, ⟨⟨[("x", 3)]⟩, .int 10⟩]⟩
    let rg : ResolvedGrammar := ⟨some .int, [⟨.variable, [], .int⟩,
      ⟨.plus, [.int, .int], .int⟩, ⟨.times, [.int, .int], .int⟩]⟩
    let x : Expr := .var "x" .int
    let sol : Expr := .binop .plus (.const 1) (.binop .times x x)
    let s : Synthesis := ⟨.found sol, ⟨3, 2, 17, 10, 6, 0⟩⟩
    synthesize p (.restricted .standard) .keepExisting = .ok s ∧ p.grammar.resolve = .ok rg ∧
      s.outcome = .found sol ∧
      Restrictions.standard.lookup (Expr.binop .times x x).kind =
        some [[.variable, .constant], [.variable, .constant]] ∧
      sol.Reproduces p.examples ∧ (∃ ty, Derives rg (p.terminals rg) sol ty) ∧
      ∀ r, Policy.restricted .standard = .restricted r → sol.Respects r := by
  intro p rg x sol s
  have h : synthesize p (.restricted .standard) .keepExisting = .ok s := by cbv
  have hg : p.grammar.resolve = .ok rg := by decide
  exact ⟨h, hg, rfl, rfl, synthesis_sound h hg rfl⟩

end ExprSynth
