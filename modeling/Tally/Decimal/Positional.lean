import Tally.Decimal.Shortest

/-! Reals as text: the shortest digits, never an exponent. -/

namespace Tally.Decimal

/-- The digits with a point among them, or with zeros up to it. A whole number
has no point, and no digit after the point is a trailing zero. -/
def Scaled.positional (d : Scaled) : String :=
  let digits := Nat.toDigits 10 d.digits
  let places := (-d.exponent).toNat
  let padded := List.replicate (places + 1 - digits.length) '0' ++ digits ++
    List.replicate d.exponent.toNat '0'
  let whole := padded.take (padded.length - places)
  let fraction := (padded.drop (padded.length - places)).reverse.dropWhile (· == '0')
  String.ofList (if fraction.isEmpty then whole else whole ++ '.' :: fraction.reverse)

def ofReal (x : Float) : String :=
  if x.isNaN then "NaN"
  else
    let sign := if x.toBits >>> 63 == 1 then "-" else ""
    let magnitude := Magnitude.ofBits x.toBits
    sign ++
      if x.isInf then "inf"
      else if magnitude.significand == 0 then "0"
      else magnitude.shortest.positional

end Tally.Decimal
