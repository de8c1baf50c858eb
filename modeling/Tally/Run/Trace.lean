import Tally.Report.Failure
import Tally.Run.Execution

/-! What is reported about the passes over a program: each step that is done, and the end of a
pass. -/

namespace Tally

inductive Event where
  | tokenRead (token : Token)
  | tokensFinished (count : Nat)
  | statementRead (statement : Statement)
  | statementsFinished (count : Nat)
  | statementStarted (statement : Statement)
  | runFinished (statements bound : Nat)
deriving DecidableEq

inductive Level where
  | trace
  | debug
deriving DecidableEq

namespace Event

/-- Single steps are reported on the finer level. -/
def level : Event → Level
  | tokenRead _ | statementRead _ | statementStarted _ => .trace
  | tokensFinished _ | statementsFinished _ | runFinished .. => .debug

/-- The part of the program that reports the event. -/
def target : Event → String
  | tokenRead _ | tokensFinished _ => "lexer"
  | statementRead _ | statementsFinished _ => "parser"
  | statementStarted _ | runFinished .. => "interpreter"

def message : Event → String
  | tokenRead _ => "lexed token"
  | tokensFinished _ => "lexing finished"
  | statementRead _ => "parsed statement"
  | statementsFinished _ => "parsing finished"
  | statementStarted _ => "executing statement"
  | runFinished .. => "interpretation finished"

/-- Named details, as text. -/
def fields : Event → List (String × String)
  | tokenRead t => [("token", t.shown), ("offset", toString t.offset)]
  | tokensFinished n | statementsFinished n => [("count", toString n)]
  | statementRead s | statementStarted s => [("statement", s.shown)]
  | runFinished statements bound =>
    [("statements", toString statements), ("variables", toString bound)]

end Event

/-- A result and the events on the way to it. -/
structure Traced (α : Type) where
  events : List Event
  result : Except Failure α

namespace Traced

variable {α β : Type}

/-- Goes on with a success. -/
def andThen (t : Traced α) (f : α → Traced β) : Traced β :=
  match t.result with
  | .error e => ⟨t.events, .error e⟩
  | .ok a => ⟨t.events ++ (f a).events, (f a).result⟩

end Traced

/-- Reading the tokens of a text. -/
def traceTokens (text : String) : Traced (List Token) :=
  let read := ((Scanner.ofText text).tokenSteps Lexeme.rules).done
  Traced.andThen ⟨read.map .tokenRead, (Token.ofText text).mapError .lexical⟩ fun tokens =>
    ⟨[.tokensFinished tokens.length], .ok tokens⟩

/-- Reading a program from its tokens. -/
def traceProgram (tokens : List Token) : Traced Program :=
  let read := (Program.readSteps tokens).done
  Traced.andThen ⟨read.map .statementRead, (Program.ofTokens tokens).mapError .structural⟩
    fun program => ⟨[.statementsFinished program.length], .ok program⟩

/-- Running a program. -/
def traceRun (m : Machine) (program : Program) : Traced Machine :=
  let started := (program.runSteps m).done
  Traced.andThen ⟨started.map .statementStarted, (program.run m).result.mapError .runtime⟩ fun n =>
    ⟨[.runFinished program.length n.store.size], .ok n⟩

end Tally
