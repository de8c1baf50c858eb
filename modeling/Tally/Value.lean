import Tally.Decimal.Positional
import Tally.Program.Expr
import Tally.Text.Quoted

/-! Values and the texts that stand for them. -/

namespace Tally

inductive Value where
  | integer (n : Int64)
  | real (x : Float)
  | text (s : String)
deriving DecidableEq

/-- The real closest to an integer, the even one of two equally close. -/
def realOfInteger (n : Int64) : Float :=
  let size := n.toInt.natAbs.toUInt64.toFloat
  if n < 0 then -size else size

namespace Value

/-- What a value looks like in the output. Zero has no sign there. -/
def shown : Value → String
  | integer n => toString n.toInt
  | real x => if x == 0 then "0" else Decimal.ofReal x
  | text s => s

/-- Kind and value, for reports. -/
def described : Value → String
  | integer n => "integer " ++ toString n.toInt
  | real x => "real " ++ Decimal.ofReal x
  | text s => "string " ++ Text.quoted s

/-- Equality of values of one kind. Reals are compared as numbers, so that zero
equals negative zero and an undefined result differs from itself. -/
def same : Value → Value → Bool
  | integer m, integer n => m == n
  | real x, real y => x == y
  | text s, text t => s == t
  | _, _ => false

end Value

end Tally
