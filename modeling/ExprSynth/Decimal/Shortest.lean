/-!
The shortest decimal of a double. For a positive finite double `m · 2^e`, `shortest`
finds the decimal with the fewest significant digits that lies in the double's rounding
interval, the nearer of two candidates on the same grid, all in exact natural-number
arithmetic.
-/

namespace ExprSynth.Decimal

/-- A decimal number `digits · 10^exponent`. -/
structure Scientific where
  digits : Nat
  exponent : Int
  deriving DecidableEq, Repr, Inhabited

/-- A non-negative rational `num / den`. -/
structure Ratio where
  num : Nat
  den : Nat
  deriving Repr, Inhabited

/-- `2^k` as a ratio, for any integer `k`. -/
def Ratio.twoPow (k : Int) : Ratio :=
  if k ≥ 0 then ⟨Nat.pow 2 k.toNat, 1⟩ else ⟨1, Nat.pow 2 k.natAbs⟩

/-- `10^k` as a ratio, for any integer `k`. -/
def Ratio.tenPow (k : Int) : Ratio :=
  if k ≥ 0 then ⟨Nat.pow 10 k.toNat, 1⟩ else ⟨1, Nat.pow 10 k.natAbs⟩

/-- The number of decimal digits of a positive number. -/
def decimalLength (n : Nat) : Nat :=
  if n < 10 then 1 else decimalLength (n / 10) + 1
termination_by n
decreasing_by omega

/-- The least `j ≥ 1` with `num · 10^j ≥ den`, searching up to `j = fuel`. -/
def leadingZeros (num den : Nat) : Nat → Nat → Nat
  | 0, j => j
  | fuel + 1, j => if num * Nat.pow 10 j ≥ den then j else leadingZeros num den fuel (j + 1)

/-- `⌊log₁₀ (num / den)⌋` for a positive ratio. -/
def floorLog10 (r : Ratio) : Int :=
  if r.num ≥ r.den then (decimalLength (r.num / r.den) : Int) - 1
  else -(leadingZeros r.num r.den 400 1 : Int)

/-- The rounding interval of a positive finite double `m · 2^e`, in units of `2^(e-2)`:
the value is `4m`, the upper end `4m + 2`, and the lower end `4m - 2`, or `4m - 1` when
the next smaller double is half as far away. Reading a decimal back gives this double
exactly when the decimal lies inside; the ends count when `m` is even. -/
structure Interval where
  mantissa : Nat
  unit : Ratio
  low : Nat
  high : Nat
  closed : Bool

/-- The interval of the double `m · 2^e`. -/
def Interval.ofBinary (m : Nat) (e : Int) (lowerCloser : Bool) : Interval :=
  ⟨m, Ratio.twoPow (e - 2), if lowerCloser then 4 * m - 1 else 4 * m - 2, 4 * m + 2, m % 2 == 0⟩

/-- Whether `x · 10^p` lies in the interval. -/
def Interval.contains (i : Interval) (x : Nat) (p : Int) : Bool :=
  let g := Ratio.tenPow p
  -- x·g against bound·unit, with both sides over the common denominator
  let lhs := x * g.num * i.unit.den
  let lo := i.low * i.unit.num * g.den
  let hi := i.high * i.unit.num * g.den
  if i.closed then lo ≤ lhs ∧ lhs ≤ hi else lo < lhs ∧ lhs < hi

/-- Of the two neighbours `x` and `x + 1` on the grid `10^p` around the value, the one
nearer to it; an exact tie goes to the even one. -/
def Interval.nearer (i : Interval) (x : Nat) (p : Int) : Nat :=
  let g := Ratio.tenPow p
  let v := 4 * i.mantissa * i.unit.num * g.den
  let below := v - x * g.num * i.unit.den
  let above := (x + 1) * g.num * i.unit.den - v
  if below < above then x else if above < below then x + 1
  else if x % 2 = 0 then x else x + 1

/-- `⌊value / 10^p⌋`, the neighbour of the value below it on the grid `10^p`. -/
def Interval.floorOn (i : Interval) (p : Int) : Nat :=
  let g := Ratio.tenPow p
  (4 * i.mantissa * i.unit.num * g.den) / (i.unit.den * g.num)

/-- Tries the grids with 1, 2, … significant digits, starting with `n` of them; on the
first grid where a neighbour of the value lies in the interval, that neighbour wins (the
nearer one when both do). -/
def Interval.search (i : Interval) (top : Int) : Nat → Nat → Scientific
  | 0, n => ⟨i.nearer (i.floorOn (top - n + 1)) (top - n + 1), top - n + 1⟩
  | fuel + 1, n =>
      let p := top - n + 1
      let x := i.floorOn p
      match i.contains x p, i.contains (x + 1) p with
      | true, true => ⟨i.nearer x p, p⟩
      | true, false => ⟨x, p⟩
      | false, true => ⟨x + 1, p⟩
      | false, false => i.search top fuel (n + 1)

/-- Drops trailing zeros of the digits into the exponent. -/
def Scientific.trim (s : Scientific) : Nat → Scientific
  | 0 => s
  | fuel + 1 =>
      if s.digits ≠ 0 ∧ s.digits % 10 = 0 then Scientific.trim ⟨s.digits / 10, s.exponent + 1⟩ fuel
      else s

/-- The shortest decimal that reads back as the positive finite double `m · 2^e`, the
nearest such decimal when several have that length. `lowerCloser` says that the next
smaller double is half as far away as the next larger one. -/
def shortest (m : Nat) (e : Int) (lowerCloser : Bool) : Scientific :=
  let i := Interval.ofBinary m e lowerCloser
  let top := floorLog10 ⟨4 * m * i.unit.num, i.unit.den⟩
  (i.search top 16 1).trim 20

end ExprSynth.Decimal
