/-!
Decimal numbers read as doubles. `doubleBitsOfNat` rounds a natural number to the
nearest double, ties to even; `fromParts` turns `significand · 10^exponent` into a double
the way a reader without exact arithmetic does: the significand is rounded first, then
multiplied or divided by a rounded power of ten, so a few long inputs land one unit away
from the nearest double.
-/

namespace ExprSynth.Decimal

/-- The bits of the double nearest to `n`, a tie going to the even mantissa; numbers too
large for a double give the bits of infinity. The mantissa is `n` cut to its 53 leading
bits, rounded on the bits cut off. -/
def doubleBitsOfNat (n : Nat) : UInt64 :=
  if n = 0 then 0 else
  let len := n.log2 + 1
  let (q, e) : Nat × Nat :=
    if len ≤ 53 then (n <<< (53 - len), len - 1)
    else
      let s := len - 53
      let q := n >>> s
      let r := n % Nat.pow 2 s
      let half := Nat.pow 2 (s - 1)
      let q := if r > half ∨ (r = half ∧ q % 2 = 1) then q + 1 else q
      if q = Nat.pow 2 53 then (Nat.pow 2 52, len) else (q, len - 1)
  let biased := e + 1023
  if biased ≥ 2047 then 0x7FF0000000000000
  else (biased.toUInt64 <<< 52) ||| (q - Nat.pow 2 52).toUInt64

/-- The double nearest to `n`. -/
def doubleOfNat (n : Nat) : Float :=
  Float.ofBits (doubleBitsOfNat n)

/-- The doubles nearest to `10^0` through `10^308`. -/
def powersOfTen : Array Float :=
  ((List.range 309).map fun k => doubleOfNat (Nat.pow 10 k)).toArray

/-- The double nearest to `10^k`, for `k ≤ 308`. -/
def powerOfTen (k : Nat) : Float :=
  powersOfTen.getD k 0

/-- Divides by `10^k`, in steps of `10^308` while `k` is larger than 308. Each step
rounds, as a reader that holds only powers up to `10^308` must. -/
def scaleDown (f : Float) (k : Nat) : Float :=
  if k ≤ 308 then f / powerOfTen k
  else if f == 0 then f
  else scaleDown (f / powerOfTen 308) (k - 308)
termination_by k
decreasing_by omega

/-- The double for `significand · 10^exponent` as a reader without exact arithmetic
computes it: the significand rounded to a double, then multiplied or divided by a rounded
power of ten. `none` when the result overflows to infinity. -/
def fromParts (significand : Nat) (exponent : Int) : Option Float :=
  let f := doubleOfNat significand
  if exponent ≥ 0 then
    let k := exponent.toNat
    if k ≤ 308 then
      let g := f * powerOfTen k
      if g.isInf then none else some g
    else if f == 0 then some f
    else none
  else scaleDown f exponent.natAbs

end ExprSynth.Decimal
