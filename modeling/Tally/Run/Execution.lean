import Tally.Program.Statement
import Tally.Run.Arithmetic
import Tally.Steps
import Tally.Store

/-! Running programs. What a run leaves behind is part of its result, whether it
succeeds or fails. -/

namespace Tally

def Expr.eval (store : Store) : Expr → Except Fault Value
  | var name =>
    match store.get? name with
    | some value => .ok value
    | none => .error (.undefinedVariable name)
  | text value => .ok (.text value)
  | integer value => .ok (.integer value)
  | binary left op right =>
    match left.eval store with
    | .error fault => .error fault
    | .ok l =>
      match right.eval store with
      | .error fault => .error fault
      | .ok r => op.apply l r

/-- The values of all items, or the first fault from the left. -/
def Expr.evalAll (store : Store) : List Expr → Except Fault (List Value)
  | [] => .ok []
  | e :: es =>
    match e.eval store with
    | .error fault => .error fault
    | .ok v =>
      match evalAll store es with
      | .error fault => .error fault
      | .ok vs => .ok (v :: vs)

/-- What lasts from one statement to the next, and from one run to the next. -/
structure Machine where
  store : Store
  sink : Sink
deriving DecidableEq

def Machine.fresh (sink : Sink) : Machine := ⟨.empty, sink⟩

structure Outcome where
  fault : Option Fault
  /-- The bytes that went to the sink. -/
  output : List UInt8
  machine : Machine
deriving DecidableEq

/-- The machine that is left, unless there was a fault. -/
def Outcome.result (o : Outcome) : Except Fault Machine :=
  match o.fault with
  | some fault => .error fault
  | none => .ok o.machine

/-- The line that shows these values. -/
def printed (values : List Value) : List UInt8 :=
  lineBytes (String.intercalate " " (values.map Value.shown))

def Statement.run (m : Machine) : Statement → Outcome
  | assign name e =>
    match e.eval m.store with
    | .error fault => ⟨some fault, [], m⟩
    | .ok value => ⟨none, [], { m with store := (m.store.set name value).2 }⟩
  | print items =>
    match Expr.evalAll m.store items with
    | .error fault => ⟨some fault, [], m⟩
    | .ok values =>
      let written := m.sink.write (printed values)
      ⟨written.refused.map .output, written.bytes, { m with sink := written.sink }⟩
  | unsupported directive => ⟨some (.unsupportedStatement directive), [], m⟩

namespace Program

/-- Starts one statement after another, up to the first fault. -/
def runSteps (m : Machine) : Program → Steps Statement Outcome
  | [] => ⟨[], none, [], m⟩
  | s :: rest =>
    Steps.after s <|
      let first := s.run m
      match first.fault with
      | some _ => ⟨[], first⟩
      | none =>
        (runSteps first.machine rest).map fun others =>
          { others with output := first.output ++ others.output }

/-- Runs the statements in order up to the first fault. -/
def run (m : Machine) (program : Program) : Outcome := (runSteps m program).ending

@[simp] theorem run_nil (m : Machine) : run m [] = ⟨none, [], m⟩ := rfl

end Program

end Tally
