import Tally.Program.Reading
import Tally.Run.Fault
import Tally.Token.Scanner

/-! Failures of any stage of a program. -/

namespace Tally

inductive Failure where
  | lexical (error : LexicalError)
  | structural (error : SyntaxError)
  | runtime (fault : Fault)
deriving DecidableEq

namespace Failure

def title : Failure → String
  | lexical _ => "Lexical Error"
  | structural _ => "Syntax Error"
  | runtime _ => "Runtime Error"

def message : Failure → String
  | lexical e => e.message
  | structural e => e.message
  | runtime f => f.message

/-- Where in the text the failure lies, if it lies in one place. -/
def offset? : Failure → Option Nat
  | lexical e => some e.offset
  | structural e => e.offset?
  | runtime _ => none

end Failure

end Tally
