import ExprSynth.Proofs.Soundness

/-! Completeness of the search under the standard restrictions, relative to its language: the
expressions of the grammar's language in which both operands of every product and every
comparison are constants or variables, that is, those every node of which the standard
restrictions allow. A restricted pool offers only candidates of the kinds allowed at its
position, so it is not enough that the values of a product's operands are retained: they must
be retained by a constant or a variable. Keeping the existing candidate on a tie, they are.
The terminals go in before any node is built, an integer terminal is retained or has the
values of a terminal retained before it, and a retained candidate is never replaced. Every
other operator's pools are the type-directed ones, and the layer argument of the
type-directed search goes through for the restricted language. -/
namespace ExprSynth

/-! ### The standard restrictions -/

/-- Products and comparisons take constants and variables at both positions. -/
theorem Restrictions.standard_lookup_of_leafOperands {kind : NodeKind}
    (hk : kind = .times ∨ kind = .lessThan) :
    Restrictions.standard.lookup kind = some [[.variable, .constant], [.variable, .constant]] := by
  rcases hk with rfl | rfl <;> rfl

/-- No other operator is restricted. -/
theorem Restrictions.standard_lookup_eq_none {kind : NodeKind}
    (hk : ¬ (kind = .times ∨ kind = .lessThan)) :
    Restrictions.standard.lookup kind = Option.none := by
  cases kind <;> simp_all [Restrictions.standard, Restrictions.restrict, Restrictions.none]

/-- Products and comparisons take two integers. -/
theorem NodeKind.HasSignature.args_of_leafOperands {kind : NodeKind} {args : List Ty} {ret : Ty}
    (hsig : kind.HasSignature args ret) (hk : kind = .times ∨ kind = .lessThan) :
    args = [.int, .int] := by
  rcases hk with rfl | rfl <;>
    simp [NodeKind.HasSignature, NodeKind.fixedSignature?] at hsig <;> exact hsig.1.symm

/-- Under the standard restrictions both operands of a product or a comparison are constants
or variables. -/
theorem Expr.Respects.operands_of_leafOperands {op : BinOp} {l r : Expr}
    (hx : (Expr.binop op l r).Respects .standard) (hk : op.kind = .times ∨ op.kind = .lessThan) :
    l.kind ∈ [NodeKind.variable, .constant] ∧ r.kind ∈ [NodeKind.variable, .constant] := by
  cases hx with
  | node allows _ =>
      obtain ⟨-, hpos⟩ := allows _ (Restrictions.standard_lookup_of_leafOperands hk)
      exact ⟨hpos 0 l _ rfl rfl, hpos 1 r _ rfl rfl⟩

/-- The pools of a product or a comparison under the standard restrictions offer every pair
of retained constants and variables at the integers. -/
theorem Policy.pair_mem_standard_pools {b : Bank} {op : Operator} {a a' : Candidate}
    (hk : op.kind = .times ∨ op.kind = .lessThan) (hargs : op.args = [.int, .int])
    (ha : a ∈ b.toList) (haty : a.ty = .int)
    (hakind : a.expr.kind ∈ [NodeKind.variable, .constant])
    (ha' : a' ∈ b.toList) (ha'ty : a'.ty = .int)
    (ha'kind : a'.expr.kind ∈ [NodeKind.variable, .constant]) :
    [a, a'] ∈ tuples ((Policy.restricted .standard).pools op b) := by
  rw [mem_tuples]
  simp only [List.mem_cons, List.not_mem_nil, or_false] at hakind ha'kind
  simp [Policy.pools, Restrictions.standard_lookup_of_leafOperands hk, hargs, Bank.poolOf, ha,
    haty, hakind, ha', ha'ty, ha'kind]

theorem Expr.depth_of_leaf {y : Expr} (hy : y.kind ∈ [NodeKind.variable, .constant]) :
    y.depth = 1 := by
  cases y with
  | const _ | var _ _ | falseLit => rfl
  | binop op _ _ => cases op <;> simp [Expr.kind, BinOp.kind] at hy
  | not _ | ite _ _ _ => simp [Expr.kind] at hy

/-- The integer terminals are constants and variables. -/
theorem Enumerator.kind_of_mem_seeds {t : Terminals} {y : Expr}
    (hy : (y, Ty.int) ∈ Enumerator.seeds t) : y.kind ∈ [NodeKind.variable, .constant] := by
  simp only [Enumerator.seeds, List.mem_append, List.mem_map, List.mem_singleton,
    Prod.mk.injEq] at hy
  rcases hy with (⟨n, -, rfl, -⟩ | ⟨v, -, rfl, -⟩) | ⟨-, h⟩
  · simp [Expr.kind]
  · simp [Expr.kind]
  · cases h

/-- An expression of the language deeper than one whose nodes `r` allows is a node of an
operator of the grammar over children of the language whose nodes `r` allows. -/
theorem Derives.node_of_respects {g : ResolvedGrammar} {t : Terminals} {r : Restrictions}
    {x : Expr} {ty : Ty} (hx : Derives g t x ty) (hr : x.Respects r) (hd : 1 < x.depth) :
    ∃ op ∈ g.ops, ∃ children, 0 < op.arity ∧ op.kind.build children = .ok x ∧ ty = op.ret ∧
      List.Forall₂ (fun y ty => Derives g t y ty ∧ y.Respects r) children op.args := by
  cases hx with
  | const _ | var _ | falseLit => simp [Expr.depth] at hd
  | node hop harity hbuild hderives =>
      cases hr with
      | node _ hchildren =>
          refine ⟨_, hop, _, harity, hbuild, rfl, ?_⟩
          rw [(NodeKind.kind_children_of_build hbuild).2] at hchildren
          exact ((List.forall₂_and_left _ _).mpr ⟨hchildren, DerivesAll.forall₂ hderives⟩).imp
            fun _ _ h => ⟨h.2, h.1⟩

/-! ### Retained leaves -/

namespace Bank

/-- Every integer terminal has its values retained by a constant or a variable, at the
integers. -/
def RetainsLeaves (b : Bank) (t : Terminals) (exs : List Example) : Prop :=
  ∀ y, (y, Ty.int) ∈ Enumerator.seeds t → ∃ a ∈ b.toList, a.ty = .int ∧
    a.expr.kind ∈ [NodeKind.variable, .constant] ∧ y.evalAll exs = a.outputs.map .ok

/-- Keeping the existing candidate on a tie, retained candidates stay, and so do retained
leaves. -/
theorem RetainsLeaves.mono {b b' : Bank} {t : Terminals} {exs : List Example}
    (h : b.RetainsLeaves t exs) (run : b.Reaches b') (htb : b.tieBreak = .keepExisting) :
    b'.RetainsLeaves t exs := by
  intro y hy
  obtain ⟨a, ha, hrest⟩ := h y hy
  have hprefix : b.toList <+: b'.toList := run.prefix fun _ _ => by rw [htb]; rfl
  exact ⟨a, hprefix.subset ha, hrest⟩

end Bank

/-- A candidate with a value on some example, each value of family `ty`, is of family `ty`. -/
theorem Candidate.Sorted.ty_eq {exs : List Example} {c : Candidate} {ty : Ty}
    (hs : c.Sorted exs) (hne : exs ≠ []) (hty : ∀ v ∈ c.outputs, v.ty = ty) : c.ty = ty := by
  have hlen : 0 < c.outputs.length := by
    rw [hs.length]
    exact List.length_pos_iff.mpr hne
  obtain ⟨v, hv⟩ := List.exists_mem_of_length_pos hlen
  exact (hs.values v hv).symm.trans (hty v hv)

namespace Enumerator

/-- A step leaves a bank that the bank before reaches. -/
theorem step_bank_reaches {e e' : Enumerator} {phase : Phase} (h : e.step = .ok (e', phase)) :
    e.bank.Reaches e'.bank := by
  rcases step_cases h with ⟨-, rfl⟩ | ⟨-, e₁, h₁, rfl⟩
  · exact .refl _
  · show e.bank.Reaches e₁.bank
    exact addLayer_reaches h₁

/-- A search over the grammar `g` and the terminals `t` under the standard restrictions, that
keeps the existing candidate on a tie and has an example: unless it has a winner, its bank
retains a constant or a variable with the values of every integer terminal. -/
structure LeafRetaining (g : ResolvedGrammar) (t : Terminals) (e : Enumerator) : Prop where
  grammar : e.grammar = g
  nonempty : e.examples ≠ []
  policy : e.policy = .restricted .standard
  tieBreak : e.bank.tieBreak = .keepExisting
  leaves : e.bank.winner.isSome ∨ e.bank.RetainsLeaves t e.examples

variable {g : ResolvedGrammar} {t : Terminals}

theorem LeafRetaining.step {e e' : Enumerator} {phase : Phase} (hinv : e.LeafRetaining g t)
    (h : e.step = .ok (e', phase)) : e'.LeafRetaining g t := by
  obtain ⟨hg, hx, hp, -⟩ := step_fields h
  have run := step_bank_reaches h
  refine ⟨hg.trans hinv.grammar, hx ▸ hinv.nonempty, hp.trans hinv.policy,
    run.tieBreak_eq.trans hinv.tieBreak, ?_⟩
  rw [hx]
  rcases hinv.leaves with hw | hleaves
  · rw [run.eq_of_winner hw]
    exact .inl hw
  · exact .inr (hleaves.mono run hinv.tieBreak)

/-- A search started under the standard restrictions, keeping the existing candidate on a
tie, retains a leaf for every integer terminal unless a terminal already won: each one is
retained, or has the values of a terminal retained before it, which is an integer terminal
too. -/
theorem start_leafRetaining {exs : List Example} {m : Nat} {e : Enumerator} (hne : exs ≠ [])
    (h : start g t exs m (.restricted .standard) .keepExisting = .ok e) : e.LeafRetaining g t := by
  obtain ⟨hgr, hx, hp, -, -⟩ := start_ok h
  have htb : e.bank.tieBreak = .keepExisting := by
    obtain ⟨-, rfl⟩ := start_eq h
    exact (Bank.reaches_insertAll _ _ _).tieBreak_eq
  refine ⟨hgr, hx ▸ hne, hp, htb, ?_⟩
  rw [hx]
  by_cases hw : e.bank.winner.isSome
  · exact .inl hw
  refine .inr fun y hy => ?_
  rcases start_covers h hy with hw' | ⟨vs, hvs, hyvals, hty⟩
  · exact absurd hw' hw
  obtain ⟨a, ha, rfl⟩ := List.mem_map.mp hvs
  obtain ⟨⟨x, tyx⟩, hxs, hc⟩ := (start_seeded h).1 a ha
  obtain ⟨hax, haty⟩ := Candidate.ofExpr_expr_ty hc
  have hint : a.ty = .int := (Candidate.ofExpr_sorted (hasTy_of_mem_seeds hxs) hc).ty_eq hne hty
  obtain rfl : tyx = .int := haty.symm.trans hint
  exact ⟨a, ha, hint, hax ▸ kind_of_mem_seeds hxs, hyvals⟩

variable {exs : List Example}

/-- Under the standard restrictions, from a bank without winner that retains a leaf for every
integer terminal and accounts for the children of an allowed node of `op`, the pools of `op`
offer a tuple whose candidate has the node's values, each of the family `op` returns. A
product or a comparison takes the retained leaves; every other operator's pools are the
type-directed ones. -/
theorem standard_node {b : Bank} {op : Operator} {children : List Expr} {x : Expr}
    (hsig : op.kind.HasSignature op.args op.ret) (hne : exs ≠ [])
    (hb : b.All fun c => c.Sorted exs ∧ c.Faithful exs) (hw : b.winner = none)
    (hleaves : b.RetainsLeaves t exs) (hbuild : op.kind.build children = .ok x)
    (hx : x.Respects .standard)
    (hlang : List.Forall₂ (fun y ty => Derives g t y ty) children op.args)
    (hchildren : List.Forall₂ (fun y ty => b.Covers exs y ty) children op.args) :
    ∃ args c, args ∈ tuples ((Policy.restricted .standard).pools op b) ∧
      Candidate.node? op.kind op.ret (exs.map (·.output)) args = some (.ok c) ∧
      x.evalAll exs = c.outputs.map .ok ∧ ∀ v ∈ c.outputs, v.ty = op.ret := by
  by_cases hk : op.kind = .times ∨ op.kind = .lessThan
  · -- both operands are integer terminals, retained as leaves
    have hargs := hsig.args_of_leafOperands hk
    obtain ⟨bop, l, r, hkind, rfl, rfl⟩ | ⟨_, hkind, -⟩ | ⟨_, _, _, hkind, -⟩ :=
      NodeKind.build_cases hbuild
    · obtain ⟨hl, hr⟩ := hx.operands_of_leafOperands (hkind ▸ hk)
      rw [hargs] at hlang
      obtain ⟨hdl, hdr⟩ : Derives g t l .int ∧ Derives g t r .int := by simpa using hlang
      obtain ⟨a, ha, haty, hakind, havals⟩ :=
        hleaves l (hdl.mem_seeds (Nat.le_of_eq (Expr.depth_of_leaf hl)))
      obtain ⟨a', ha', ha'ty, ha'kind, ha'vals⟩ :=
        hleaves r (hdr.mem_seeds (Nat.le_of_eq (Expr.depth_of_leaf hr)))
      have htuple := Policy.pair_mem_standard_pools hk hargs ha haty hakind ha' ha'ty ha'kind
      obtain ⟨c, hnode, hxc, hty⟩ :=
        node_of_tuple hsig hb htuple hbuild (.cons havals (.cons ha'vals .nil))
      exact ⟨_, c, htuple, hnode, hxc, hty⟩
    · simp [hkind] at hk
    · simp [hkind] at hk
  · -- every other operator's pools are the type-directed ones
    have hpools : (Policy.restricted .standard).pools op b = Policy.typeDirected.pools op b := by
      simp [Policy.pools, Restrictions.standard_lookup_eq_none hk]
    rw [hpools]
    exact typeDirected_node hsig hne hb hw hbuild hchildren

/-- One layer of a leaf-retaining search that accounts for the restricted language up to its
depth accounts for it one level deeper. -/
theorem LeafRetaining.addLayer_covers {e e₁ : Enumerator} (hinv : e.LeafRetaining g t)
    (hacc : e.Accounts fun x ty => Derives g t x ty ∧ x.Respects .standard)
    (h : e.addLayer = .ok e₁) :
    ∀ x ty, Derives g t x ty ∧ x.Respects .standard → x.depth ≤ e.counters.depth + 1 →
      e₁.bank.Covers e.examples x ty := by
  refine addLayer_covers_of hacc.signed hacc.wellFormed hacc.accurate hacc.depth_pos ?_ ?_
    hacc.covers h
  · intro x ty hx hd
    rw [hinv.grammar]
    exact hx.1.node_of_respects hx.2 hd
  · intro s hreach hs hsw op hop children x hbuild hx hlang hchildren
    -- the bank at the turn still retains the leaves the layer starts with
    have hleaves : s.RetainsLeaves t e.examples := by
      rcases hinv.leaves with hwin | hleaves
      · rw [hreach.eq_of_winner hwin] at hsw
        simp [hsw] at hwin
      · exact hleaves.mono hreach hinv.tieBreak
    rw [hinv.policy]
    exact standard_node (hacc.signed op hop) hinv.nonempty hs hsw hleaves hbuild hx.2
      (hlang.imp fun _ _ h => h.1) hchildren

end Enumerator

/-- Completeness of the search under the standard restrictions, keeping the existing
candidate on a tie. The restricted language of a problem is the expressions of its language
in which both operands of every product and every comparison are constants or variables.
When the synthesis returns, some expression of the restricted language no deeper than the
depth bound reproduces the examples only if an expression was found; and when one was
found, no expression of the restricted language shallower than the depth the search reached
reproduces them. -/
theorem restricted_search_complete {p : Problem} {s : Synthesis} {rg : ResolvedGrammar}
    (h : synthesize p (.restricted .standard) .keepExisting = .ok s)
    (hg : p.grammar.resolve = .ok rg) :
    ((∃ x ty, Derives rg (p.terminals rg) x ty ∧ x.Respects .standard ∧ x.depth ≤ p.maxDepth ∧
      x.Reproduces p.examples) → ∃ x, s.outcome = .found x) ∧
    ∀ x, s.outcome = .found x → ∀ y ty, Derives rg (p.terminals rg) y ty →
      y.Respects .standard → y.depth < s.stats.depth → ¬ y.Reproduces p.examples := by
  obtain ⟨rg', e, e', hv, hg', hstart, hrun, rfl⟩ := synthesize_ok h
  rw [hg] at hg'
  cases hg'
  obtain ⟨-, hex, -, hm, -⟩ := Enumerator.start_ok hstart
  have hinit : e.Accounts fun x ty => Derives rg (p.terminals rg) x ty ∧ x.Respects .standard :=
    Enumerator.start_accounts hg (fun x ty hx hle => hx.1.mem_seeds hle) hstart
  have hleaves := Enumerator.start_leafRetaining (Problem.examples_ne_nil_of_validate hv) hstart
  obtain ⟨hfinal, -, hover⟩ := Enumerator.stepWhile_accounts
    (fun _ _ _ _ hj hstep => hj.step hstep) (fun _ _ hacc hj _ h₁ => hj.addLayer_covers hacc h₁)
    hinit hleaves hrun
  have hover := hover (by omega)
  obtain ⟨-, hex', -, hm'⟩ := (Enumerator.stepWhile_reaches hrun).fields
  have hexs : e'.examples = p.examples := hex'.trans hex
  refine ⟨?_, ?_⟩
  · rintro ⟨x, ty, hx, hr, hdepth, hrep⟩
    have hwin := hfinal.winner_of_reproduces hover ⟨hx, hr⟩ (by omega) (hexs ▸ hrep)
    cases hw : e'.bank.winner with
    | some w => exact ⟨w.expr, rfl⟩
    | none => simp [hw] at hwin
  · intro _ _ y ty hy hr hlt
    rw [← hexs]
    exact hfinal.shallow y ty ⟨hy, hr⟩ hlt

/-- Over a variable `x` with sums and products, the constant one and the examples
`x = 2 ↦ 5` and `x = 3 ↦ 10`, the restricted language holds `1 + x * x`, of depth three, whose
product has a variable at both positions: the restricted search builds two layers from its
restricted pools and finds it, and no restricted expression of depth two or less reproduces
the examples. -/
theorem restricted_search_complete_square :
    let p : Problem := ⟨3, ⟨[.variable, .plus, .times], []⟩, ["x"], [1],
      [⟨⟨[("x", 2)]⟩, .int 5⟩, ⟨⟨[("x", 3)]⟩, .int 10⟩]⟩
    let rg : ResolvedGrammar := ⟨some .int, [⟨.variable, [], .int⟩,
      ⟨.plus, [.int, .int], .int⟩, ⟨.times, [.int, .int], .int⟩]⟩
    let x : Expr := .var "x" .int
    let sol : Expr := .binop .plus (.const 1) (.binop .times x x)
    let s : Synthesis := ⟨.found sol, ⟨3, 2, 17, 10, 6, 0⟩⟩
    synthesize p (.restricted .standard) .keepExisting = .ok s ∧ p.grammar.resolve = .ok rg ∧
      Derives rg (p.terminals rg) sol .int ∧ sol.Respects .standard ∧ sol.depth ≤ p.maxDepth ∧
      sol.Reproduces p.examples ∧ (∃ y, s.outcome = .found y) ∧
      ∀ y ty, Derives rg (p.terminals rg) y ty → y.Respects .standard →
        y.depth < s.stats.depth → ¬ y.Reproduces p.examples := by
  intro p rg x sol s
  have h : synthesize p (.restricted .standard) .keepExisting = .ok s := by cbv
  have hg : p.grammar.resolve = .ok rg := by decide
  have hx : Derives rg (p.terminals rg) x .int := .var (by simp [p, Problem.terminals])
  have hsquare : Derives rg (p.terminals rg) (.binop .times x x) .int :=
    @Derives.node rg _ ⟨.times, [.int, .int], .int⟩ [x, x] _ (by simp [rg]) (by decide) rfl
      (.cons hx (.cons hx .nil))
  have hsol : Derives rg (p.terminals rg) sol .int :=
    @Derives.node rg _ ⟨.plus, [.int, .int], .int⟩ [.const 1, .binop .times x x] _ (by simp [rg])
      (by decide) rfl (.cons (.const (by simp [p, Problem.terminals])) (.cons hsquare .nil))
  -- the product is restricted, to a variable or a constant at both positions; the sum is not
  have hleaf : ∀ y : Expr, y.children = [] → y.Respects .standard := fun y hy =>
    .node (hy ▸ Restrictions.allows_nil _ _) (by simp [hy])
  have hxr : x.Respects .standard := hleaf x rfl
  have hsquarer : (Expr.binop .times x x).Respects .standard := by
    have hlookup : Restrictions.standard.lookup (Expr.binop .times x x).kind =
        some [[.variable, .constant], [.variable, .constant]] :=
      Restrictions.standard_lookup_of_leafOperands (.inl rfl)
    refine .node (fun positions hpos => ?_) (by simp [Expr.children, hxr])
    rw [hlookup] at hpos
    cases hpos
    -- both children are `x`, and both positions allow variables
    refine ⟨by decide, fun i child allowed hchild hallowed => ?_⟩
    have hchild' : child = x := by
      rcases i with _ | _ | i <;> simp [Expr.children] at hchild <;> exact hchild.symm
    have hallowed' : allowed = [.variable, .constant] := by
      rcases i with _ | _ | i <;> simp at hallowed <;> exact hallowed.symm
    rw [hchild', hallowed']
    decide
  have hsolr : sol.Respects .standard := by
    have hlookup : Restrictions.standard.lookup sol.kind = none :=
      Restrictions.standard_lookup_eq_none (by decide)
    refine .node (fun positions hpos => ?_) ?_
    · simp [hlookup] at hpos
    · intro y hy
      simp only [sol, Expr.children, List.mem_cons, List.not_mem_nil, or_false] at hy
      rcases hy with rfl | rfl
      exacts [hleaf _ rfl, hsquarer]
  have hrep : sol.Reproduces p.examples := Expr.reproduces_iff.mpr (by decide)
  obtain ⟨hfind, hshallow⟩ := restricted_search_complete h hg
  exact ⟨h, hg, hsol, hsolr, by decide, hrep, hfind ⟨sol, .int, hsol, hsolr, by decide, hrep⟩,
    fun y ty hy hr hlt => hshallow sol rfl y ty hy hr hlt⟩

end ExprSynth
