import ExprSynth.Decimal.Shortest

/-!
The text of a double: the shortest digits, written positionally while the leading digit
stands at most sixteen places before the point and fewer than five after it, otherwise
as one digit, a point, the rest and a signed exponent (`1e+30`, `1.5e-7`).
-/

namespace ExprSynth.Decimal

/-- `k` zeros. -/
def zeros (k : Nat) : String :=
  String.ofList (List.replicate k '0')

/-- The text of a decimal exponent after its `e`: a sign, then its digits. -/
def exponentText (n : Int) : String :=
  (if n < 0 then "-" else "+") ++ toString n.natAbs

/-- The text of a positive decimal: positional when its leading digit is at most sixteen
places before the point and fewer than five places after it, with `.0` ending an integer,
and otherwise one digit, the rest after a point, and the exponent. -/
def Scientific.layout (s : Scientific) : String :=
  let ds := toString s.digits
  let length : Int := ds.length
  let kk := length + s.exponent
  if 0 ≤ s.exponent ∧ kk ≤ 16 then ds ++ zeros s.exponent.toNat ++ ".0"
  else if 0 < kk ∧ kk ≤ 16 then
    String.ofList (ds.toList.take kk.toNat) ++ "." ++ String.ofList (ds.toList.drop kk.toNat)
  else if -5 < kk ∧ kk ≤ 0 then "0." ++ zeros kk.natAbs ++ ds
  else
    match ds.toList with
    | [d] => String.singleton d ++ "e" ++ exponentText (kk - 1)
    | d :: rest => String.singleton d ++ "." ++ String.ofList rest ++ "e" ++ exponentText (kk - 1)
    | [] => "0.0"

/-- The shortest text that reads back as the double with bits `bits`. -/
def textOfBits (bits : UInt64) : String :=
  let negative := bits >>> 63 = 1
  let biased := ((bits >>> 52) &&& 0x7FF).toNat
  let fraction := (bits &&& 0xFFFFFFFFFFFFF).toNat
  let sign := if negative then "-" else ""
  if biased = 0x7FF then
    if fraction = 0 then sign ++ "inf" else "NaN"
  else if biased = 0 ∧ fraction = 0 then sign ++ "0.0"
  else
    let s :=
      if biased = 0 then shortest fraction (-1074) false
      else shortest (fraction + Nat.pow 2 52) ((biased : Int) - 1075) (fraction = 0 ∧ biased > 1)
    sign ++ s.layout

end ExprSynth.Decimal
