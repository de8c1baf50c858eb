import Tally.Lexeme.Rule
import Tally.Steps

/-! Reading a text token by token. A scanner says what is left to read, also
after an error. -/

namespace Tally

inductive LexicalError where
  | unexpectedCharacter (character : Char) (offset : Nat)
  | unterminatedString (delimiter : Char) (offset : Nat)
  | integerOutOfRange (literal : String) (offset : Nat)
deriving DecidableEq

namespace LexicalError

def offset : LexicalError → Nat
  | unexpectedCharacter _ o | unterminatedString _ o | integerOutOfRange _ o => o

def message : LexicalError → String
  | unexpectedCharacter c o =>
    "Lexer: unexpected character " ++ Text.quotedChar c ++ " at offset " ++ toString o
  | unterminatedString c o =>
    "Lexer: unterminated string, opening " ++ Text.quotedChar c ++ " at offset " ++ toString o ++
      " is never closed"
  | integerOutOfRange literal o =>
    "Lexer: integer literal " ++ literal ++ " at offset " ++ toString o ++ " is out of range"

end LexicalError

structure Scanner where
  rest : List Char
  /-- Number of characters before the rest. -/
  offset : Nat
deriving DecidableEq

namespace Scanner
open Lexeme

def ofText (text : String) : Scanner := ⟨text.toList, 0⟩

/-- Behind so many characters. -/
def behind (s : Scanner) (n : Nat) : Scanner := ⟨s.rest.drop n, s.offset + n⟩

theorem behind_cons (c : Char) (cs : List Char) (o more : Nat) :
    behind ⟨c :: cs, o⟩ (1 + more) = ⟨cs.drop more, o + (1 + more)⟩ := by
  simp [behind, Nat.add_comm 1]

/-- Behind everything. -/
def closed (s : Scanner) : Scanner := s.behind s.rest.length

/-- What the rules make of the front of a text. -/
inductive Step where
  /-- Nothing, for so many characters behind the first. -/
  | blank (more : Nat)
  | token (token : Token) (more : Nat)
  | failed (error : LexicalError) (passed : Nat)
deriving DecidableEq

/-- Applies a rule at the offset. A character that no rule knows and a string that
is never closed are not passed, a number out of range is. -/
def step (table : List Rule) (c : Char) (cs : List Char) (offset : Nat) : Step :=
  match firstMatch table c cs with
  | none => .failed (.unexpectedCharacter c offset) 0
  | some (_, .unclosed delimiter) => .failed (.unterminatedString delimiter offset) 0
  | some (rule, .closed more) =>
    match rule.action with
    | .skip => .blank more
    | .emit kind conversion =>
      match conversion.payload? (c :: cs.take more) with
      | some payload => .token ⟨kind, payload, offset⟩ more
      | none => .failed (.integerOutOfRange (String.ofList (c :: cs.take more)) offset) (1 + more)

/-- The next token, if there is one, and the scanner behind it. -/
def next (table : List Rule) : Scanner → Except LexicalError (Option Token) × Scanner
  | ⟨[], o⟩ => (.ok none, ⟨[], o⟩)
  | ⟨c :: cs, o⟩ =>
    match step table c cs o with
    | .blank more => next table ⟨cs.drop more, o + (1 + more)⟩
    | .token t more => (.ok (some t), ⟨cs.drop more, o + (1 + more)⟩)
    | .failed e passed => (.error e, ⟨(c :: cs).drop passed, o + passed⟩)
termination_by s => s.rest.length

/-- As `next`, but nothing is left to read after an error. -/
def nextOrClose (table : List Rule) (s : Scanner) : Except LexicalError (Option Token) × Scanner :=
  match s.next table with
  | (.error e, t) => (.error e, t.closed)
  | (.ok token, t) => (.ok token, t)

/-- Reads token by token up to the end, or up to the first error. -/
def tokenSteps (table : List Rule) : Scanner → Steps Token (Except LexicalError Unit)
  | ⟨[], _⟩ => ⟨[], .ok ()⟩
  | ⟨c :: cs, o⟩ =>
    match step table c cs o with
    | .blank more => tokenSteps table ⟨cs.drop more, o + (1 + more)⟩
    | .token t more => (tokenSteps table ⟨cs.drop more, o + (1 + more)⟩).after t
    | .failed e _ => ⟨[], .error e⟩
termination_by s => s.rest.length

/-- Every token up to the end, unless an error comes first. -/
def tokens (table : List Rule) (s : Scanner) : Except LexicalError (List Token) :=
  let steps := s.tokenSteps table
  steps.ending.map fun _ => steps.done

@[simp] theorem tokens_nil (table : List Rule) (o : Nat) : tokens table ⟨[], o⟩ = .ok [] := by
  rw [tokens, tokenSteps]
  rfl

theorem tokens_cons (table : List Rule) (c : Char) (cs : List Char) (o : Nat) :
    tokens table ⟨c :: cs, o⟩ =
      match step table c cs o with
      | .blank more => tokens table ⟨cs.drop more, o + (1 + more)⟩
      | .token t more => (tokens table ⟨cs.drop more, o + (1 + more)⟩).map (t :: ·)
      | .failed e _ => .error e := by
  rw [tokens, tokenSteps]
  cases step table c cs o with
  | blank more => rfl
  | token t more =>
    simp only [tokens, Steps.ending_after, Steps.done_after]
    cases (tokenSteps table ⟨cs.drop more, o + (1 + more)⟩).ending <;> rfl
  | failed e passed => rfl

end Scanner

/-- The tokens of a text. -/
def Token.ofText (text : String) : Except LexicalError (List Token) :=
  (Scanner.ofText text).tokens Lexeme.rules

end Tally
