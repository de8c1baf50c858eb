import Tally.Proofs.Lexeme
import Tally.Proofs.Relocation
import Tally.Token.Scanner

/-! Texts at other places. What a scanner reads does not depend on how much of the text is behind
it, but for the offsets in what it reads. -/

namespace Tally

open Lexeme

def LexicalError.relocate (g : Nat → Nat) : LexicalError → LexicalError
  | unexpectedCharacter c o => .unexpectedCharacter c (g o)
  | unterminatedString c o => .unterminatedString c (g o)
  | integerOutOfRange literal o => .integerOutOfRange literal (g o)

/-- The same tokens or the same error at other places. -/
def Token.relocateAll (g : Nat → Nat) :
    Except LexicalError (List Token) → Except LexicalError (List Token)
  | .error e => .error (e.relocate g)
  | .ok tokens => .ok (tokens.map (relocate g))

namespace Scanner

/-- What a scanner gives when it is asked for a token. -/
abbrev Answer := Except LexicalError (Option Token)

def Answer.relocate (g : Nat → Nat) : Answer → Answer
  | .error e => .error (e.relocate g)
  | .ok token => .ok (token.map (Token.relocate g))

def Step.relocate (g : Nat → Nat) : Step → Step
  | blank more => .blank more
  | token t more => .token (t.relocate g) more
  | failed e passed => .failed (e.relocate g) passed

/-- The scanner of the same rest, with so many more characters before it. -/
def shift (n : Nat) (s : Scanner) : Scanner := ⟨s.rest, s.offset + n⟩

/-- What a step can be: it fails and passes nothing, or it is over a lexeme, of which a rule makes
layout, a token or a number out of range. -/
inductive Steps (table : List Rule) (c : Char) (cs : List Char) (o : Nat) : Step → Prop where
  | stays {e} (ho : e.offset = o) (he : ∀ literal p, e ≠ .integerOutOfRange literal p) :
      Steps table c cs o (.failed e 0)
  | layout {rule run behind} (hr : rule ∈ table) (hcs : cs = run ++ behind)
      (hm : rule.form.Matches (c :: run) behind) (haction : rule.action = .skip) :
      Steps table c cs o (.blank run.length)
  | token {rule run behind kind conversion payload} (hr : rule ∈ table) (hcs : cs = run ++ behind)
      (hm : rule.form.Matches (c :: run) behind) (haction : rule.action = .emit kind conversion)
      (hpayload : conversion.payload? (c :: run) = some payload) :
      Steps table c cs o (.token ⟨kind, payload, o⟩ run.length)
  | outOfRange {rule run behind kind conversion} (hr : rule ∈ table) (hcs : cs = run ++ behind)
      (hm : rule.form.Matches (c :: run) behind) (haction : rule.action = .emit kind conversion)
      (hpayload : conversion.payload? (c :: run) = none) :
      Steps table c cs o
        (.failed (.integerOutOfRange (String.ofList (c :: run)) o) (1 + run.length))

section Places

variable {table : List Rule}

theorem steps_step (table : List Rule) (c : Char) (cs : List Char) (o : Nat) :
    Steps table c cs o (step table c cs o) := by
  unfold step
  split
  case h_1 => exact .stays rfl (by simp)
  case h_2 => exact .stays rfl (by simp)
  case h_3 rule more hfirst =>
    obtain ⟨hr, hext⟩ := rule_of_firstMatch hfirst
    obtain ⟨run, behind, rfl, rfl, hm⟩ := Form.matches_of_extent hext
    rw [List.take_left]
    split
    case h_1 haction => exact .layout hr rfl hm haction
    case h_2 kind conversion haction =>
      split
      case h_1 payload hpayload => exact .token hr rfl hm haction hpayload
      case h_2 hpayload => exact .outOfRange hr rfl hm haction hpayload

theorem step_relocate (g : Nat → Nat) (table : List Rule) (c : Char) (cs : List Char) (o : Nat) :
    step table c cs (g o) = (step table c cs o).relocate g := by
  unfold step
  split
  · rfl
  · rfl
  · split
    · rfl
    · split <;> rfl

theorem next_shift (n : Nat) (s : Scanner) :
    (s.shift n).next table =
      (Answer.relocate (· + n) (s.next table).1, (s.next table).2.shift n) := by
  fun_induction next table s with
  | case1 o =>
    rw [shift, next]
    rfl
  | case2 c cs o more hstep ih =>
    rw [shift, next, step_relocate (· + n), hstep]
    simp only [Step.relocate]
    rw [← ih, shift, Nat.add_right_comm]
  | case3 c cs o t more hstep =>
    rw [shift, next, step_relocate (· + n), hstep]
    simp [Step.relocate, Answer.relocate, shift, Nat.add_right_comm]
  | case4 c cs o e passed hstep =>
    rw [shift, next, step_relocate (· + n), hstep]
    simp [Step.relocate, Answer.relocate, shift, Nat.add_right_comm]

theorem tokens_shift (n : Nat) (s : Scanner) :
    (s.shift n).tokens table = Token.relocateAll (· + n) (s.tokens table) := by
  fun_induction tokenSteps table s with
  | case1 o => simp [shift, Token.relocateAll]
  | case2 c cs o more hstep ih =>
    rw [shift, tokens_cons, tokens_cons, step_relocate (· + n), hstep]
    simp only [Step.relocate]
    rw [← ih, shift, Nat.add_right_comm]
  | case3 c cs o t more hstep ih =>
    rw [shift, tokens_cons, tokens_cons, step_relocate (· + n), hstep]
    rw [shift] at ih
    simp only [Step.relocate]
    rw [Nat.add_right_comm, ih]
    cases tokens table ⟨cs.drop more, o + (1 + more)⟩ <;> rfl
  | case4 c cs o e passed hstep =>
    rw [shift, tokens_cons, tokens_cons, step_relocate (· + n), hstep]
    rfl

end Places

end Scanner

end Tally
