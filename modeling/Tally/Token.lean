import Tally.Text.Quoted

/-! Tokens: what a program's text is made of. -/

namespace Tally

inductive Kind where
  | var
  | equal
  | text
  | integer
  | print
  | plus
  | minus
  | times
  | slash
  | comma
  | lineEnd
  | directive
deriving DecidableEq, Repr

namespace Kind

def name : Kind → String
  | var => "VARIABLE"
  | equal => "EQUAL"
  | text => "STRING"
  | integer => "INTEGER"
  | print => "PRINT"
  | plus => "PLUS"
  | minus => "MINUS"
  | times => "MULTIPLY"
  | slash => "DIVISION"
  | comma => "COMMA"
  | lineEnd => "EOL"
  | directive => "UNSUPPORTED"

end Kind

/-- What a token carries besides its kind. -/
inductive Payload where
  | text (value : String)
  | integer (value : Int64)
deriving DecidableEq

def Payload.shown : Payload → String
  | text value => Text.quoted value
  | integer value => toString value.toInt

structure Token where
  kind : Kind
  payload : Payload
  /-- Number of characters before the token. -/
  offset : Nat
deriving DecidableEq

namespace Token

def shown (t : Token) : String := t.kind.name ++ " " ++ t.payload.shown

/-- The text of the token. An integer has none. -/
def text (t : Token) : String :=
  match t.payload with
  | .text value => value
  | .integer _ => ""

end Token

end Tally
