import Tally.Run.Fault

/-! Arithmetic on values: exact on integers, checked on reals. -/

namespace Tally

namespace Op

/-- The exact result. Division leaves the integers. -/
def onIntegers? : Op → Int → Int → Option Int
  | add, m, n => some (m + n)
  | subtract, m, n => some (m - n)
  | multiply, m, n => some (m * n)
  | divide, _, _ => none

def onReals : Op → Float → Float → Float
  | add, x, y => x + y
  | subtract, x, y => x - y
  | multiply, x, y => x * y
  | divide, x, y => x / y

/-- The divisor must not be zero and the result must be finite. -/
def applyReals (op : Op) (x y : Float) : Except Fault Value :=
  if op = .divide ∧ y == 0 then .error .divisionByZero
  else if (op.onReals x y).isFinite then .ok (.real (op.onReals x y))
  else .error (.realOverflow x op y)

/-- An exact result must be an integer of the language. -/
def applyIntegers (op : Op) (m n : Int64) : Except Fault Value :=
  match op.onIntegers? m.toInt n.toInt with
  | some k =>
    if Int64.minValue.toInt ≤ k ∧ k ≤ Int64.maxValue.toInt then .ok (.integer (Int64.ofInt k))
    else .error (.integerOverflow m op n)
  | none => op.applyReals (realOfInteger m) (realOfInteger n)

/-- One real operand makes the operation real. Texts are refused. -/
def apply (op : Op) : Value → Value → Except Fault Value
  | .text s, _ | _, .text s => .error (.nonNumeric op s)
  | .integer m, .integer n => op.applyIntegers m n
  | .integer m, .real y => op.applyReals (realOfInteger m) y
  | .real x, .integer n => op.applyReals x (realOfInteger n)
  | .real x, .real y => op.applyReals x y

end Op

end Tally
