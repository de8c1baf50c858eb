import Tally.Program.Expr

/-! Statements. A program is a list of them. -/

namespace Tally

inductive Statement where
  | assign (name : String) (value : Expr)
  | print (items : List Expr)
  /-- A directive of the language that cannot be carried out. -/
  | unsupported (directive : String)
deriving DecidableEq

abbrev Program := List Statement

namespace Statement

def shown : Statement → String
  | assign name value => "$" ++ name ++ " = " ++ value.shown
  | print [] => "PRINT"
  | print items => "PRINT " ++ String.intercalate ", " (items.map Expr.shown)
  | unsupported directive => directive

end Statement

end Tally
