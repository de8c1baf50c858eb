import Tally.Run.Sink
import Tally.Value

/-! What can go wrong while a program runs. -/

namespace Tally

inductive Fault where
  | undefinedVariable (name : String)
  /-- The operand is a text, the left one if both are. -/
  | nonNumeric (op : Op) (operand : String)
  | divisionByZero
  | integerOverflow (left : Int64) (op : Op) (right : Int64)
  | realOverflow (left : Float) (op : Op) (right : Float)
  | unsupportedStatement (directive : String)
  | output (refusal : Refusal)
deriving DecidableEq

namespace Fault

def message : Fault → String
  | undefinedVariable name => "Interpreter: undefined variable $" ++ name
  | nonNumeric op operand =>
    "Interpreter: operator '" ++ String.singleton op.symbol ++ "' needs numeric operands, got " ++
      (Value.text operand).described
  | divisionByZero => "Interpreter: division by zero"
  | integerOverflow left op right =>
    "Interpreter: integer overflow in " ++ toString left.toInt ++ " " ++
      String.singleton op.symbol ++ " " ++ toString right.toInt
  | realOverflow left op right =>
    "Interpreter: real overflow in " ++ Decimal.ofReal left ++ " " ++
      String.singleton op.symbol ++ " " ++ Decimal.ofReal right
  | unsupportedStatement directive => "Interpreter: unsupported statement " ++ directive
  | output refusal => "Interpreter: failed to write output: " ++ refusal.message

end Fault

end Tally
