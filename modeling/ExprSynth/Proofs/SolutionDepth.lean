import ExprSynth.Proofs.Soundness

/-! The depth of the expression found. The depth a search reaches counts its layers, and it
is a lower bound on every solution of the problem's language: the search accounts for the
whole language up to that depth, and a layer that starts without a winner accounts only for
expressions that do not reproduce the examples. The winner is a solution, so it is at least as
deep. It need not be the shallowest: within a layer an operator's pools hold what earlier
operators of the same layer built, so a layer can build an expression two levels deeper than
the one before and find it before a shallower solution that a later operator would build. -/
namespace ExprSynth

namespace Enumerator

/-- The winner, if any, is at least as deep as the depth the search has reached. -/
def WinnerDeep (e : Enumerator) : Prop :=
  ∀ w, e.bank.winner = some w → e.counters.depth ≤ w.expr.depth

variable {g : ResolvedGrammar} {t : Terminals} {policy : Policy} {exs : List Example}

theorem start_winnerDeep {m : Nat} {tb : TieBreak} {e : Enumerator}
    (h : start g t exs m policy tb = .ok e) : e.WinnerDeep := by
  obtain ⟨-, rfl⟩ := start_eq h
  intro w _
  simp only [Counters.depth_recordAll]
  exact w.expr.depth_pos

/-- A layer sets a winner only deeper than the layers before it. The search accounts for
every expression of the language up to its depth, and a layer starts without a winner, so
none of them reproduces the examples; the winner is an expression of the language that
does. -/
theorem WinnerDeep.step {e e' : Enumerator} {phase : Phase} (hacc : e.Accounts (Derives g t))
    (hsound : e.Sound g t policy exs) (hdeep : e.WinnerDeep) (h : e.step = .ok (e', phase)) :
    e'.WinnerDeep := by
  have hsound' := hsound.step h
  rcases step_cases h with ⟨-, rfl⟩ | ⟨hphase, e₁, h₁, rfl⟩
  · exact hdeep
  intro w hw
  obtain ⟨hnone, -⟩ := winner_of_searching hphase
  have hw' := hsound'.bank.2 w hw
  have hrep : w.expr.Reproduces e.examples := by
    rw [hsound.examples]
    exact hw'.faithful.reproduces (hsound'.winner w hw)
  obtain ⟨-, -, -, -, hd⟩ := addLayer_fields h₁
  show e₁.counters.depth + 1 ≤ w.expr.depth
  by_contra hlt
  have hcov := hacc.covers w.expr w.ty hw'.derives (by omega)
  exact hcov.not_reproduces hacc.wellFormed (hacc.accurate.imp fun _ h => h.2) hnone hrep

end Enumerator

/-- The depth the type-directed search reaches is a lower bound on the depth of every solution
of the problem's language, the expression found included, for every tie break. When the
synthesis finds an expression, it is at least as deep as the depth the search reached, and
every expression of the language that reproduces the examples is too. -/
theorem found_depth_bounds {p : Problem} {tb : TieBreak} {s : Synthesis} {rg : ResolvedGrammar}
    {x : Expr} (h : synthesize p .typeDirected tb = .ok s) (hg : p.grammar.resolve = .ok rg)
    (hfound : s.outcome = .found x) :
    s.stats.depth ≤ x.depth ∧ ∀ y ty, Derives rg (p.terminals rg) y ty →
      y.Reproduces p.examples → s.stats.depth ≤ y.depth := by
  obtain ⟨rg', e, e', hv, hg', hstart, hrun, rfl⟩ := synthesize_ok h
  rw [hg] at hg'
  cases hg'
  have hne := Problem.examples_ne_nil_of_validate hv
  have hinit : e.Accounts (Derives rg (p.terminals rg)) :=
    Enumerator.start_accounts hg (fun x ty hx hle => hx.mem_seeds hle) hstart
  -- the winner's depth is carried along the run with the soundness of the bank
  obtain ⟨hfinal, ⟨hsound, hdeep⟩, -⟩ := Enumerator.stepWhile_accounts
    (J := fun e => e.Sound rg (p.terminals rg) .typeDirected p.examples ∧ e.WinnerDeep)
    (fun _ _ _ hacc hj hstep => ⟨hj.1.step hstep, hj.2.step hacc hj.1 hstep⟩)
    (fun _ _ hacc hj _ h₁ =>
      hacc.addLayer_covers hj.1.grammar (hj.1.examples ▸ hne) hj.1.policy_eq h₁)
    hinit ⟨Enumerator.start_sound hg hstart, Enumerator.start_winnerDeep hstart⟩ hrun
  refine ⟨?_, ?_⟩
  · cases hw : e'.bank.winner with
    | none => simp [hw] at hfound
    | some w =>
        simp only [hw, Option.map_some, Option.elim_some, Outcome.found.injEq] at hfound
        subst hfound
        exact hdeep w hw
  · intro y ty hy hrep
    by_contra hlt
    rw [← hsound.examples] at hrep
    exact hfinal.shallow y ty hy (by simpa [Enumerator.stats] using hlt) hrep

/-- Over a variable `x` with sums, comparisons and negation, and the one example where `x` is
one and the answer is true, the search reaches depth two and finds `x < x + x`, of depth
three. -/
theorem found_depth_bounds_comparison :
    let p : Problem :=
      ⟨2, ⟨[.variable, .plus], [.lessThan, .not]⟩, ["x"], [], [⟨⟨[("x", 1)]⟩, .bool true⟩]⟩
    let rg : ResolvedGrammar := ⟨some .int, [⟨.variable, [], .int⟩,
      ⟨.plus, [.int, .int], .int⟩, ⟨.lessThan, [.int, .int], .bool⟩, ⟨.not, [.bool], .bool⟩]⟩
    let x : Expr := .binop .lessThan (.var "x" .int) (.binop .plus (.var "x" .int) (.var "x" .int))
    let s : Synthesis := ⟨.found x, ⟨2, 1, 5, 3, 1, 0⟩⟩
    synthesize p .typeDirected .keepExisting = .ok s ∧ p.grammar.resolve = .ok rg ∧
      s.outcome = .found x ∧ s.stats.depth ≤ x.depth ∧
      ∀ y ty, Derives rg (p.terminals rg) y ty → y.Reproduces p.examples → s.stats.depth ≤ y.depth := by
  intro p rg x s
  have h : synthesize p .typeDirected .keepExisting = .ok s := by cbv
  have hg : p.grammar.resolve = .ok rg := by decide
  exact ⟨h, hg, rfl, found_depth_bounds h hg rfl⟩

/-- The expression found need not be the shallowest solution. On the same problem the search
finds `x < x + x`, of depth three, while `¬false`, of depth two, is in the language and
reproduces the example: in the second layer the comparisons draw on the sum the same layer
built before them, and the comparison succeeds before the negations' turn. -/
theorem synthesize_not_shallowest :
    let p : Problem :=
      ⟨2, ⟨[.variable, .plus], [.lessThan, .not]⟩, ["x"], [], [⟨⟨[("x", 1)]⟩, .bool true⟩]⟩
    let rg : ResolvedGrammar := ⟨some .int, [⟨.variable, [], .int⟩,
      ⟨.plus, [.int, .int], .int⟩, ⟨.lessThan, [.int, .int], .bool⟩, ⟨.not, [.bool], .bool⟩]⟩
    let x : Expr := .binop .lessThan (.var "x" .int) (.binop .plus (.var "x" .int) (.var "x" .int))
    synthesize p .typeDirected .keepExisting = .ok ⟨.found x, ⟨2, 1, 5, 3, 1, 0⟩⟩ ∧
      p.grammar.resolve = .ok rg ∧ Derives rg (p.terminals rg) (.not .falseLit) .bool ∧
      (Expr.not .falseLit).depth < x.depth ∧ (Expr.not .falseLit).Reproduces p.examples := by
  intro p rg x
  have hnot : Derives rg (p.terminals rg) (.not .falseLit) .bool :=
    @Derives.node rg (p.terminals rg) ⟨.not, [.bool], .bool⟩ [.falseLit] (.not .falseLit)
      (by decide) (by decide) rfl (.cons .falseLit .nil)
  exact ⟨by cbv, by decide, hnot, by decide, Expr.reproduces_iff.mpr (by decide)⟩

end ExprSynth
