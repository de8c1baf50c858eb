import Tally.Report.Failure
import Tally.Run.Execution

/-! From the text of a program to its run. -/

namespace Tally

def Program.ofText (text : String) : Except Failure Program :=
  match Token.ofText text with
  | .error e => .error (.lexical e)
  | .ok tokens => (ofTokens tokens).mapError .structural

/-- Why the program with this text fails on a fresh machine, if it does. -/
def diagnose (text : String) (sink : Sink) : Option Failure :=
  match Program.ofText text with
  | .error f => some f
  | .ok program => (program.run (.fresh sink)).fault.map .runtime

end Tally
