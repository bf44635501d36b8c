/-!
Sets of code points written as sorted lists of inclusive ranges, the form in which the
character tables of the Unicode standard are given.
-/

namespace ExprSynth.Text

/-- A set of code points: inclusive ranges `(first, last)`. -/
abbrev CodeRanges := List (Nat × Nat)

/-- Whether the code point of `c` lies in one of the ranges. -/
def CodeRanges.contains (rs : CodeRanges) (c : Char) : Bool :=
  rs.any fun (first, last) => first ≤ c.toNat && c.toNat ≤ last

/-- A character is in the ranges exactly when some range holds its code point. -/
theorem CodeRanges.contains_iff (rs : CodeRanges) (c : Char) :
    rs.contains c = true ↔ ∃ r ∈ rs, r.1 ≤ c.toNat ∧ c.toNat ≤ r.2 := by
  simp [CodeRanges.contains]

end ExprSynth.Text
