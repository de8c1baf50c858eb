import Tally.Program.Statement
import Tally.Steps
import Tally.Token

/-! Reading expressions and statements from tokens. How many tokens were passed
is part of the result, also after an error. -/

namespace Tally

inductive Expectation where
  | statement
  | var
  | equalSign
  | print
  | directive
  | expression
deriving DecidableEq

def Expectation.shown : Expectation → String
  | statement => "a statement"
  | var => "a variable"
  | equalSign => "'='"
  | print => "PRINT"
  | directive => "a directive"
  | expression => "an expression"

inductive SyntaxError where
  | unexpectedToken (expected : Expectation) (found : Kind) (offset : Nat)
  | unexpectedEnd (expected : Expectation)
deriving DecidableEq

namespace SyntaxError

def offset? : SyntaxError → Option Nat
  | unexpectedToken _ _ o => some o
  | unexpectedEnd _ => none

def message : SyntaxError → String
  | unexpectedToken expected found o =>
    "Parser: expected " ++ expected.shown ++ ", found " ++ found.name ++ " at offset " ++ toString o
  | unexpectedEnd expected => "Parser: expected " ++ expected.shown ++ ", found end of input"

end SyntaxError

/-- The result of reading from the front of some tokens. -/
structure Reading (α : Type) where
  result : Except SyntaxError α
  /-- How many tokens were passed, also up to an error. -/
  passed : Nat

namespace Reading

variable {α β : Type}

/-- The same reading after some more tokens. -/
def behind (n : Nat) (r : Reading α) : Reading α := ⟨r.result, n + r.passed⟩

def map (f : α → β) (r : Reading α) : Reading β := ⟨r.result.map f, r.passed⟩

end Reading

def Kind.op? : Kind → Option Op
  | plus => some .add
  | minus => some .subtract
  | times => some .multiply
  | slash => some .divide
  | _ => none

namespace Token

/-- The expression that is this token alone. -/
def operand? (t : Token) : Option Expr :=
  match t.kind, t.payload with
  | .var, .text name => some (.var name)
  | .text, .text value => some (.text value)
  | .integer, .integer value => some (.integer value)
  | _, _ => none

def unexpected (t : Token) (expected : Expectation) : SyntaxError :=
  .unexpectedToken expected t.kind t.offset

/-- Goes on behind the token, which must be of this kind. -/
def expect {α : Type} (t : Token) (kind : Kind) (expected : Expectation) (next : Reading α) :
    Reading α :=
  if t.kind = kind then next else ⟨.error (t.unexpected expected), 0⟩

end Token

namespace Expr

mutual

/-- An operand and every operator behind it that holds tighter than the bound,
each with its right operand. A token that is no operand is passed. -/
def read (bound : Nat) : List Token → Reading Expr
  | [] => ⟨.error (.unexpectedEnd .expression), 0⟩
  | t :: ts =>
    match t.operand? with
    | none => ⟨.error (t.unexpected .expression), 1⟩
    | some left => (extend bound left ts).behind 1
termination_by ts => ts.length

/-- Goes on behind a complete left operand. Operators of one precedence group to
the left. -/
def extend (bound : Nat) (left : Expr) : List Token → Reading Expr
  | [] => ⟨.ok left, 0⟩
  | t :: ts =>
    match t.kind.op? with
    | none => ⟨.ok left, 0⟩
    | some op =>
      if op.precedence ≤ bound then ⟨.ok left, 0⟩
      else
        match read op.precedence ts with
        | ⟨.error e, n⟩ => ⟨.error e, n + 1⟩
        | ⟨.ok right, n⟩ => (extend bound (binary left op right) (ts.drop n)).behind (n + 1)
termination_by ts => ts.length

end

/-- One expression, and one more behind every comma. -/
def readList (ts : List Token) : Reading (List Expr) :=
  match read 0 ts with
  | ⟨.error e, n⟩ => ⟨.error e, n⟩
  | ⟨.ok e, n⟩ =>
    match _ : ts.drop n with
    | [] => ⟨.ok [e], n⟩
    | t :: rest =>
      if t.kind = .comma then ((readList rest).map (e :: ·)).behind (n + 1) else ⟨.ok [e], n⟩
termination_by ts.length
decreasing_by
  have : (ts.drop n).length = rest.length + 1 := by simp [*]
  simp at this
  omega

end Expr

namespace Statement

/-- What follows the name of a variable that is to be assigned. -/
def readAssignment (name : String) : List Token → Reading Statement
  | [] => ⟨.error (.unexpectedEnd .equalSign), 0⟩
  | t :: ts => (t.expect .equal .equalSign ((Expr.read 0 ts).map (assign name))).behind 1

/-- What follows the first token of a statement, if a statement can begin so. The kind of that
token decides what is read, and is looked at again there. -/
def read? (first : Token) (ts : List Token) : Option (Reading Statement) :=
  match first.kind with
  | .var => some (first.expect .var .var (readAssignment first.text ts))
  | .print => some (first.expect .print .print ((Expr.readList ts).map print))
  | .directive => some (first.expect .directive .directive ⟨.ok (unsupported first.text), 0⟩)
  | _ => none

theorem readAssignment_cons (name : String) (t : Token) (ts : List Token) :
    readAssignment name (t :: ts) =
      if t.kind = .equal then ((Expr.read 0 ts).map (assign name)).behind 1
      else ⟨.error (t.unexpected .equalSign), 1⟩ := by
  rw [readAssignment, Token.expect]
  split <;> rfl

/-- The second look at the kind never finds another one. -/
theorem read?_eq (first : Token) (ts : List Token) :
    read? first ts =
      match first.kind with
      | .var => some (readAssignment first.text ts)
      | .print => some ((Expr.readList ts).map print)
      | .directive => some ⟨.ok (unsupported first.text), 0⟩
      | _ => none := by
  unfold read?
  split <;> simp_all [Token.expect]

theorem ne_lineEnd_of_read? {first : Token} {ts : List Token} {r : Reading Statement}
    (h : read? first ts = some r) : first.kind ≠ .lineEnd := by
  intro hkind
  simp [read?_eq, hkind] at h

end Statement

namespace Program

/-- Reads statement by statement up to the end of the tokens, or up to the first error. Line ends
may stand between statements. A token that begins no statement is not passed. -/
def readSteps : List Token → Steps Statement (Reading Unit)
  | [] => ⟨[], .ok (), 0⟩
  | t :: ts =>
    if t.kind = .lineEnd then (readSteps ts).map (·.behind 1)
    else
      match Statement.read? t ts with
      | none => ⟨[], .error (t.unexpected .statement), 0⟩
      | some ⟨.error e, n⟩ => ⟨[], .error e, n + 1⟩
      | some ⟨.ok s, n⟩ => ((readSteps (ts.drop n)).map (·.behind (n + 1))).after s
termination_by ts => ts.length

/-- The statements up to the end of the tokens, unless an error comes first. -/
def read (ts : List Token) : Reading Program :=
  let steps := readSteps ts
  steps.ending.map fun _ => steps.done

@[simp] theorem read_nil : read [] = ⟨.ok [], 0⟩ := by
  rw [read, readSteps]
  rfl

theorem read_cons (t : Token) (ts : List Token) :
    read (t :: ts) =
      if t.kind = .lineEnd then (read ts).behind 1
      else
        match Statement.read? t ts with
        | none => ⟨.error (t.unexpected .statement), 0⟩
        | some ⟨.error e, n⟩ => ⟨.error e, n + 1⟩
        | some ⟨.ok s, n⟩ => ((read (ts.drop n)).map (s :: ·)).behind (n + 1) := by
  rw [read, readSteps]
  split
  case isTrue => rfl
  case isFalse =>
    rcases Statement.read? t ts with _ | ⟨_ | s, n⟩
    · rfl
    · rfl
    · simp only [read, Steps.ending_after, Steps.done_after, Steps.ending_map, Steps.done_map]
      rcases (readSteps (ts.drop n)).ending with ⟨_ | _, _⟩ <;> rfl

section Outcomes

variable {t : Token} {ts : List Token} {s : Statement} {e : SyntaxError} {n : Nat}

theorem read_of_lineEnd (h : t.kind = .lineEnd) : read (t :: ts) = (read ts).behind 1 := by
  rw [read_cons, if_pos h]

theorem read_of_none (ht : t.kind ≠ .lineEnd) (h : Statement.read? t ts = none) :
    read (t :: ts) = ⟨.error (t.unexpected .statement), 0⟩ := by
  rw [read_cons, if_neg ht, h]

theorem read_of_error (h : Statement.read? t ts = some ⟨.error e, n⟩) :
    read (t :: ts) = ⟨.error e, n + 1⟩ := by
  rw [read_cons, if_neg (Statement.ne_lineEnd_of_read? h), h]

theorem read_of_ok (h : Statement.read? t ts = some ⟨.ok s, n⟩) :
    read (t :: ts) = ((read (ts.drop n)).map (s :: ·)).behind (n + 1) := by
  rw [read_cons, if_neg (Statement.ne_lineEnd_of_read? h), h]

end Outcomes

def ofTokens (tokens : List Token) : Except SyntaxError Program := (read tokens).result

end Program

end Tally
