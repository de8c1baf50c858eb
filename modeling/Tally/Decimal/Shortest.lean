/-! The shortest decimal that identifies a binary floating-point number. All
arithmetic is exact, on natural numbers. -/

namespace Tally.Decimal

/-- A finite number without its sign, `significand * 2 ^ exponent`. -/
structure Magnitude where
  significand : Nat
  exponent : Int
  /-- The next smaller number is half as far away as the next larger one. -/
  closerBelow : Bool

/-- The 52 fraction bits and the 11 exponent bits of a finite number. Exponent
zero marks the numbers below the first power of two with a full fraction. -/
def Magnitude.ofBits (bits : UInt64) : Magnitude :=
  let fraction := (bits &&& 0xFFFFFFFFFFFFF).toNat
  match ((bits >>> 52) &&& 0x7FF).toNat with
  | 0 => ⟨fraction, -1074, false⟩
  | e + 1 => ⟨1 <<< 52 + fraction, e - 1074, fraction == 0 && e != 0⟩

/-- The number `digits * 10 ^ exponent`. -/
structure Scaled where
  digits : Nat
  exponent : Int
deriving DecidableEq

/-- The product `n * 10 ^ k`. -/
def shift10 (n k : Nat) : Nat := n * Nat.pow 10 k

/-- Compares `a * 10 ^ i` with `b * 2 ^ j`. -/
def compareScaled (a : Nat) (i : Int) (b : Nat) (j : Int) : Ordering :=
  compare (shift10 a i.toNat <<< (-j).toNat) (shift10 b (-i).toNat <<< j.toNat)

/-- Whether the decimal is rounded to this number: it lies within half the
distance to either neighbour, and a tie goes to the even significand. -/
def Magnitude.nearest (x : Magnitude) (d : Scaled) : Bool :=
  let low := compareScaled d.digits d.exponent
    (4 * x.significand - if x.closerBelow then 1 else 2) (x.exponent - 2)
  let high := compareScaled d.digits d.exponent (4 * x.significand + 2) (x.exponent - 2)
  let even := x.significand % 2 == 0
  (low == .gt || even && low == .eq) && (high == .lt || even && high == .eq)

def digitCount (n : Nat) : Nat := (Nat.toDigits 10 n).length

/-- The least `k` with `x < 10 ^ k`, for a positive number. -/
def Magnitude.scale (x : Magnitude) : Int :=
  let numerator := x.significand <<< x.exponent.toNat
  let denominator := 1 <<< (-x.exponent).toNat
  if denominator ≤ numerator then digitCount (numerator / denominator)
  else 1 - digitCount ((denominator - 1) / numerator)

/-- The largest multiple of `10 ^ exponent` that is at most the number. -/
def Magnitude.floor (x : Magnitude) (exponent : Int) : Nat :=
  (shift10 x.significand (-exponent).toNat <<< x.exponent.toNat) /
    (shift10 1 exponent.toNat <<< (-x.exponent).toNat)

/-- Of the two multiples of `10 ^ exponent` around the number, the one that
identifies it; of two such the closer, and of two equally close the larger. -/
def Magnitude.onGrid? (x : Magnitude) (exponent : Int) : Option Scaled :=
  let below : Scaled := ⟨x.floor exponent, exponent⟩
  let above : Scaled := ⟨x.floor exponent + 1, exponent⟩
  match x.nearest below, x.nearest above with
  | true, true =>
    let middle := compareScaled (below.digits + above.digits) exponent x.significand (x.exponent + 1)
    some (if middle == .gt then below else above)
  | true, false => some below
  | false, true => some above
  | false, false => none

/-- The number itself as a decimal, with all its digits. -/
def Magnitude.exact (x : Magnitude) : Scaled :=
  if 0 ≤ x.exponent then ⟨x.significand <<< x.exponent.toNat, 0⟩
  else ⟨x.significand * Nat.pow 5 (-x.exponent).toNat, x.exponent⟩

/-- The decimal with the fewest digits that identifies a positive number. -/
def Magnitude.shortest (x : Magnitude) : Scaled :=
  let grids := (List.range 17).map fun n : Nat => x.scale - (n + 1)
  (grids.findSome? x.onGrid?).getD x.exact

end Tally.Decimal
