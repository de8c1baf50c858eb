/-! Expressions and their fully parenthesised text. -/

namespace Tally

inductive Op where
  | add
  | subtract
  | multiply
  | divide
deriving DecidableEq, Repr

namespace Op

def symbol : Op → Char
  | add => '+'
  | subtract => '-'
  | multiply => '*'
  | divide => '/'

/-- How tightly the operator holds its operands. -/
def precedence : Op → Nat
  | add | subtract => 1
  | multiply | divide => 2

end Op

inductive Expr where
  | var (name : String)
  | text (value : String)
  | integer (value : Int64)
  | binary (left : Expr) (op : Op) (right : Expr)
deriving DecidableEq

namespace Expr

/-- A text literal: quotes and backslashes get a backslash, all else stays. -/
def literal (value : String) : String :=
  "\"" ++ String.ofList (value.toList.flatMap fun c =>
    if c = '"' ∨ c = '\\' then ['\\', c] else [c]) ++ "\""

def shown : Expr → String
  | var name => "$" ++ name
  | text value => literal value
  | integer value => toString value.toInt
  | binary left op right =>
    "(" ++ left.shown ++ " " ++ String.singleton op.symbol ++ " " ++ right.shown ++ ")"

end Expr

end Tally
