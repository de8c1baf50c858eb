import Tally.Proofs.Calls
import Tally.Proofs.Diagnosis

/-! Lexical errors. A text has one exactly if its scanner comes to a place where neither layout nor a
token begins, and the characters from there on decide which error it is. -/

namespace Tally

open Lexeme Segment

/-- There is a quote behind characters that stand for themselves or are escaped. -/
def Closes (cs : List Char) : Prop :=
  ∃ (body : List LiteralChar) (behind : List Char), (∀ u ∈ body, u.Valid '"') ∧
    cs = LiteralChar.written body ++ '"' :: behind

/-- Neither layout nor a token of any kind begins with the character. -/
def Unknown (c : Char) : Prop := ¬ Blank c ∧ c ≠ '%' ∧ ∀ kind : Kind, ¬ kind.Begins c

/-- The text from the offset on is what the error says. -/
def LexicalError.Describes (rest : List Char) (o : Nat) : LexicalError → Prop
  | unterminatedString delimiter place =>
    place = o ∧ delimiter = '"' ∧ ∃ cs, rest = '"' :: cs ∧ ¬ Closes cs
  | integerOutOfRange literal place =>
    place = o ∧ ∃ digits behind, rest = digits ++ behind ∧ TooLarge digits behind ∧
      literal = String.ofList digits
  | unexpectedCharacter c place =>
    place = o ∧ ∃ cs, rest = c :: cs ∧
      ((c = '$' ∨ c = '@') ∧ (∀ d ∈ cs.head?, ¬ NameChar d) ∨
        c = 'P' ∧ ¬ ['R', 'I', 'N', 'T'] <+: cs ∨ Unknown c)

section Places

variable {rest cs : List Char} {c : Char} {o : Nat} {e : LexicalError} {error : Nat → LexicalError}

theorem throughClosing_eq_none_iff : throughClosing '"' cs = none ↔ ¬ Closes cs := by
  rw [Option.eq_none_iff_forall_ne_some]
  constructor
  · rintro h ⟨body, behind, hbody, rfl⟩
    exact h _ (throughClosing_append (by decide) hbody)
  · intro h n hn
    obtain ⟨-, body, behind, hbody, hcs, -⟩ := throughClosing_sound hn
    exact h ⟨body, behind, hbody, hcs⟩

/-- The rules know the first characters of layout and of tokens, and no others. -/
theorem unknown_iff : Unknown c ↔ ∀ rule ∈ rules, ¬ rule.form.Begins c := by
  have hkinds : (∀ kind : Kind, ¬ kind.Begins c) ↔
      (c ≠ '$' ∧ c ≠ '@' ∧ c ≠ '"' ∧ ¬ Digit c ∧ c ≠ 'P') ∧ ∀ p ∈ symbols, c ≠ p.1 := by
    constructor
    · intro h
      refine ⟨⟨h .var, h .directive, h .text, h .integer, h .print⟩, ?_⟩
      rintro ⟨d, kind⟩ hp rfl
      exact h kind (begins_of_mem_symbols hp)
    · rintro ⟨⟨hvar, hdirective, htext, hinteger, hprint⟩, hsymbols⟩ kind hc
      cases kind with
      | var => exact hvar hc
      | directive => exact hdirective hc
      | text => exact htext hc
      | integer => exact hinteger hc
      | print => exact hprint hc
      | _ => exact hsymbols _ hc rfl
  -- what is left is the same list of characters on both sides, in another order
  rw [Unknown, hkinds]
  simp [rules, symbol, Form.Begins, symbols, isBlank_iff, isDigit_iff]
  tauto

/-- An error describes a text exactly if its scanner is stuck there with this error. -/
theorem describes_iff : e.Describes rest o ↔ ∃ error, Obstacle rest error ∧ e = error o := by
  constructor
  · intro h
    cases e with
    | unterminatedString delimiter place =>
      obtain ⟨rfl, rfl, cs, rfl, hopen⟩ := h
      exact ⟨_, .openText (throughClosing_eq_none_iff.mpr hopen), rfl⟩
    | integerOutOfRange literal place =>
      obtain ⟨rfl, digits, behind, rfl, hdigits, rfl⟩ := h
      exact ⟨_, .number hdigits, rfl⟩
    | unexpectedCharacter c place =>
      obtain ⟨rfl, cs, rfl, ⟨hmark, hname⟩ | ⟨rfl, hword⟩ | hunknown⟩ := h
      · exact ⟨_, .sigil hmark.symm hname, rfl⟩
      · exact ⟨_, .word hword, rfl⟩
      · exact ⟨_, .unknown (unknown_iff.mp hunknown), rfl⟩
  · rintro ⟨error, h, rfl⟩
    cases h with
    | openText h => exact ⟨rfl, rfl, _, rfl, throughClosing_eq_none_iff.mp h⟩
    | number h => exact ⟨rfl, _, _, rfl, h, rfl⟩
    | sigil hmark h => exact ⟨rfl, _, rfl, .inl ⟨hmark.symm, h⟩⟩
    | word h => exact ⟨rfl, _, rfl, .inr (.inl ⟨rfl, h⟩)⟩
    | unknown h => exact ⟨rfl, _, rfl, .inr (.inr (unknown_iff.mpr h))⟩

theorem LexicalError.Describes.tokens_eq (h : e.Describes rest o) :
    Scanner.tokens rules ⟨rest, o⟩ = .error e := by
  obtain ⟨error, hobstacle, rfl⟩ := describes_iff.mp h
  exact hobstacle.tokens_eq o

/-- Only one error describes a text. -/
theorem LexicalError.Describes.unique {other : LexicalError} (h : e.Describes rest o)
    (hother : other.Describes rest o) : other = e := by
  have heq := hother.tokens_eq.symm.trans h.tokens_eq
  exact Except.error.inj heq

end Places

section Passing

variable {s t : Scanner} {tokens : List Token} {calls : List Scanner.Call} {e : LexicalError}

theorem Scanner.answers_of_next_eq (h : s.next rules = t.next rules) :
    s.answers calls = t.answers calls := by
  cases calls with
  | nil => rfl
  | cons call calls => cases call <;> simp only [answers, ask, nextOrClose, h]

/-- Asked in whatever way, a scanner gives the tokens that it passes and then the error that it
comes to. -/
theorem Scanner.Passes.answers_eq (h : s.Passes tokens t) (ht : (t.next rules).1 = .error e)
    (hcalls : calls.length = tokens.length + 1) :
    s.answers calls = tokens.map (fun u => .ok (some u)) ++ [.error e] := by
  induction h generalizing calls with
  | @refl s =>
    obtain ⟨call, rfl⟩ := List.length_eq_one_iff.mp hcalls
    simp [answers, (s.ask_cases call).1, ht]
  | @blank c cs o more tokens s hstep hs ih =>
    -- no call ends within layout
    rw [← ih ht hcalls]
    refine answers_of_next_eq ?_
    rw [next, hstep, behind_cons]
  | @token c cs o u more tokens s hstep hs ih =>
    obtain ⟨call, calls, rfl⟩ := List.exists_cons_of_length_eq_add_one hcalls
    have hnext : next rules ⟨c :: cs, o⟩ = (.ok (some u), Scanner.behind ⟨c :: cs, o⟩ (1 + more)) := by
      rw [next, hstep, behind_cons]
    obtain ⟨hanswer, hleft | ⟨⟨other, hother⟩, -⟩⟩ := ask_cases ⟨c :: cs, o⟩ call
    · rw [answers, hanswer, hleft, hnext, List.map_cons, List.cons_append]
      exact congrArg _ (ih ht (by simpa using hcalls))
    · simp [hnext] at hother

end Passing

/-- A text has a lexical error exactly if its scanner comes over layout and tokens to a place that the
error describes. There is only one such error. The place is in the text, the text before it has no
lexical error, and its tokens are those that the scanner gives before the error, in whatever way it is
asked. -/
theorem ofText_eq_error_iff_describes (text : String) :
    (∀ e, Token.ofText text = .error e → e.offset < text.length ∧
      (∀ other : LexicalError,
        other.Describes (text.toList.drop e.offset) e.offset ↔ other = e) ∧
      ∃ tokens,
        (Scanner.ofText text).Passes tokens ⟨text.toList.drop e.offset, e.offset⟩ ∧
        Token.ofText (String.ofList (text.toList.take e.offset)) = .ok tokens ∧
        ∀ calls, calls.length = tokens.length + 1 → (Scanner.ofText text).answers calls =
          tokens.map (fun t => .ok (some t)) ++ [.error e]) ∧
    ∀ tokens s e, (Scanner.ofText text).Passes tokens s → e.Describes s.rest s.offset →
      Token.ofText text = .error e := by
  refine ⟨fun e he => ?_, fun tokens s e hs he => ?_⟩
  · obtain ⟨segments, c, cs, n, htext, hfit, -, hstep⟩ := exists_fit_of_error he
    have ho := Scanner.offset_of_failed hstep
    have hpasses := passes_of_fit hfit 0
    rw [← htext, Nat.zero_add, ← ho] at hpasses
    have hdescribes : e.Describes (c :: cs) e.offset := by
      obtain ⟨error, hobstacle, heq⟩ := exists_obstacle hstep
      rw [ho]
      exact describes_iff.mpr ⟨error, hobstacle, heq⟩
    have hnext : (Scanner.next rules ⟨c :: cs, e.offset⟩).1 = .error e := by
      rw [ho, Scanner.next, hstep]
    have hbefore : text.toList.take e.offset = textOf segments := by rw [htext, ho, List.take_left]
    have hbehind : text.toList.drop e.offset = c :: cs := by rw [htext, ho, List.drop_left]
    rw [hbefore, hbehind]
    refine ⟨?_, fun other => ⟨hdescribes.unique, ?_⟩, tokensOf 0 segments, hpasses, ?_, ?_⟩
    · rw [← String.length_toList, htext, ho, List.length_append, List.length_cons]
      omega
    · rintro rfl
      exact hdescribes
    · rw [Token.ofText, Scanner.ofText, String.toList_ofList]
      exact tokens_of_fit (fit_of_head? hfit (by simp)) 0
    · intro calls hcalls
      exact hpasses.answers_eq hnext hcalls
  · have htokens := hs.tokens_eq
    rw [he.tokens_eq] at htokens
    exact htokens

/-- A number out of range, behind an escaped quote and behind a comment with quotes and a sigil. -/
def tooLargeText : String := "$a=\"\\\"%9\";%\"$\n\tPRINT 9223372036854775808a"

/-- The only quote behind the first one is escaped. -/
def unclosedText : String := "PRINT \"\\\""

theorem tooLargeText_unclosedText :
    (let e := LexicalError.integerOutOfRange "9223372036854775808" 21;
      Token.ofText tooLargeText = .error e ∧ 21 < tooLargeText.length ∧
      (∀ other : LexicalError, other.Describes (tooLargeText.toList.drop 21) 21 ↔ other = e) ∧
      ∃ tokens, Token.ofText (String.ofList (tooLargeText.toList.take 21)) = .ok tokens ∧
        ∀ calls, calls.length = tokens.length + 1 → (Scanner.ofText tooLargeText).answers calls =
          tokens.map (fun t => .ok (some t)) ++ [.error e]) ∧
    (Scanner.ofText unclosedText).Passes [⟨.print, .text "PRINT", 0⟩] ⟨['"', '\\', '"'], 6⟩ ∧
    (LexicalError.unterminatedString '"' 6).Describes ['"', '\\', '"'] 6 ∧
    Token.ofText unclosedText = .error (.unterminatedString '"' 6) := by
  have hnumber : Token.ofText tooLargeText =
      .error (.integerOutOfRange "9223372036854775808" 21) := by decide +kernel
  obtain ⟨hlt, hunique, tokens, -, hbefore, hanswers⟩ :=
    (ofText_eq_error_iff_describes tooLargeText).1 _ hnumber
  have hprint : Scanner.step rules 'P' ['R', 'I', 'N', 'T', ' ', '"', '\\', '"'] 0 =
      .token ⟨.print, .text "PRINT", 0⟩ 4 := by decide +kernel
  have hblank : Scanner.step rules ' ' ['"', '\\', '"'] 5 = .blank 0 := by decide +kernel
  have hpasses : (Scanner.ofText unclosedText).Passes [⟨.print, .text "PRINT", 0⟩]
      ⟨['"', '\\', '"'], 6⟩ := .token hprint (.blank hblank .refl)
  have hopen : (LexicalError.unterminatedString '"' 6).Describes ['"', '\\', '"'] 6 :=
    ⟨rfl, rfl, _, rfl, throughClosing_eq_none_iff.mp (by decide)⟩
  exact ⟨⟨hnumber, hlt, hunique, tokens, hbefore, hanswers⟩, hpasses, hopen,
    (ofText_eq_error_iff_describes unclosedText).2 _ _ _ hpasses hopen⟩

end Tally
