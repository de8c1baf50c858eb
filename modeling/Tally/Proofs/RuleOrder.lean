import Tally.Proofs.Lexeme
import Tally.Token.Scanner

/-! The order of the rules. No two rules apply at the front of the same text, and so a text is read
in the same way in whatever order the rules are tried. -/

namespace Tally

namespace Lexeme

/-- A lexeme of the rule begins at the front of the text, or one that is never closed. -/
def Rule.Applies (rule : Rule) (c : Char) (behind : List Char) : Prop :=
  ∃ extent, rule.form.extent c behind = some extent

section Tables

variable {table others : List Rule} {rule : Rule} {extent : Extent} {c : Char} {behind : List Char}

theorem Rule.Applies.begins (h : rule.Applies c behind) : rule.form.Begins c := by
  obtain ⟨extent, hextent⟩ := h
  by_contra hc
  rw [Form.extent_eq_none hc] at hextent
  cases hextent

/-- Where one rule of a table whose rules are apart applies, no other one does. -/
theorem Apart.not_applies (h : Apart table) (c : Char) (behind : List Char) :
    table.Pairwise fun r s => ¬ (r.Applies c behind ∧ s.Applies c behind) := by
  refine h.imp ?_
  rintro r s hapart ⟨hr, hs⟩
  exact hapart c hr.begins hs.begins

/-- The match is the one rule that applies, wherever it stands in the table. -/
theorem Apart.firstMatch_eq_some_iff (h : Apart table) :
    firstMatch table c behind = some (rule, extent) ↔
      rule ∈ table ∧ rule.form.extent c behind = some extent := by
  refine ⟨rule_of_firstMatch, ?_⟩
  rintro ⟨hr, hextent⟩
  have hbegins : rule.form.Begins c := Rule.Applies.begins ⟨extent, hextent⟩
  rw [firstMatch_eq h hr hbegins, hextent]
  rfl

theorem Apart.perm (h : Apart table) (hp : table.Perm others) : Apart others := by
  refine (hp.pairwise_iff ?_).mp h
  intro r s hrs c hs hr
  exact hrs c hr hs

theorem Apart.firstMatch_perm (h : Apart table) (hp : table.Perm others) :
    firstMatch table c behind = firstMatch others c behind := by
  refine Option.ext fun found => ?_
  obtain ⟨rule, extent⟩ := found
  rw [h.firstMatch_eq_some_iff, (h.perm hp).firstMatch_eq_some_iff, hp.mem_iff]

end Tables

end Lexeme

open Lexeme

namespace Scanner

variable {table others : List Rule}

/-- Steps by two tables are the same if the tables have the same matches. -/
theorem step_congr (h : ∀ c behind, firstMatch table c behind = firstMatch others c behind)
    (c : Char) (cs : List Char) (o : Nat) : step table c cs o = step others c cs o := by
  unfold step
  rw [h]

theorem next_congr (h : ∀ c cs o, step table c cs o = step others c cs o) (s : Scanner) :
    s.next table = s.next others := by
  fun_induction next table s with
  | case1 o => rw [next]
  | case2 c cs o more hstep ih => rw [ih, next, ← h, hstep]
  | case3 c cs o t more hstep => rw [next, ← h, hstep]
  | case4 c cs o e passed hstep => rw [next, ← h, hstep]

theorem nextOrClose_congr (h : ∀ c cs o, step table c cs o = step others c cs o) (s : Scanner) :
    s.nextOrClose table = s.nextOrClose others := by
  unfold nextOrClose
  rw [next_congr h]

theorem tokenSteps_congr (h : ∀ c cs o, step table c cs o = step others c cs o) (s : Scanner) :
    s.tokenSteps table = s.tokenSteps others := by
  fun_induction tokenSteps table s with
  | case1 o => rw [tokenSteps]
  | case2 c cs o more hstep ih => rw [ih, tokenSteps, ← h, hstep]
  | case3 c cs o t more hstep ih => rw [ih, tokenSteps, ← h, hstep]
  | case4 c cs o e passed hstep => rw [tokenSteps, ← h, hstep]

theorem tokens_congr (h : ∀ c cs o, step table c cs o = step others c cs o) (s : Scanner) :
    s.tokens table = s.tokens others := by
  rw [tokens, tokens, tokenSteps_congr h]

end Scanner

/-- At the front of a text at most one rule of the language finds a lexeme or an open text. In
whatever order the rules are tried, that one is the match, every scanner gives the same tokens and
errors in every way it is asked, and every text has the same tokens or the same error. -/
theorem tokens_of_perm :
    (∀ c behind, rules.Pairwise fun r s => ¬ (r.Applies c behind ∧ s.Applies c behind)) ∧
    ∀ table : List Rule, table.Perm rules →
      (∀ c behind, firstMatch table c behind = firstMatch rules c behind ∧
        ∀ rule extent, firstMatch table c behind = some (rule, extent) ↔
          rule ∈ rules ∧ rule.form.extent c behind = some extent) ∧
      (∀ s : Scanner, s.next table = s.next rules ∧ s.nextOrClose table = s.nextOrClose rules) ∧
      ∀ text, (Scanner.ofText text).tokens table = Token.ofText text := by
  refine ⟨rules_apart.not_applies, ?_⟩
  intro table hp
  have happart : Apart table := rules_apart.perm hp.symm
  have hmatch : ∀ c behind, firstMatch table c behind = firstMatch rules c behind := by
    intro c behind
    exact happart.firstMatch_perm hp
  have hstep := Scanner.step_congr hmatch
  refine ⟨?_, ?_, ?_⟩
  · intro c behind
    refine ⟨hmatch c behind, ?_⟩
    intro rule extent
    rw [happart.firstMatch_eq_some_iff, hp.mem_iff]
  · intro s
    exact ⟨Scanner.next_congr hstep s, Scanner.nextOrClose_congr hstep s⟩
  · intro text
    exact Scanner.tokens_congr hstep (Scanner.ofText text)

/-- The last rule is tried first: a sigil, a comment over a quote, and a quote that is never
closed. -/
theorem reverse_tokens : rules.reverse.Perm rules ∧
    (Scanner.ofText "$a=1%\"\n\"\\\"").tokens rules.reverse = .error (.unterminatedString '"' 7) ∧
    (Scanner.ofText "PRINT 07;@x").tokens rules.reverse =
      .ok [⟨.print, .text "PRINT", 0⟩, ⟨.integer, .integer 7, 6⟩, ⟨.lineEnd, .text ";", 8⟩,
        ⟨.directive, .text "@x", 9⟩] := by
  have hp : rules.reverse.Perm rules := List.reverse_perm rules
  obtain ⟨-, -, htokens⟩ := tokens_of_perm.2 rules.reverse hp
  have hopen : Token.ofText "$a=1%\"\n\"\\\"" = .error (.unterminatedString '"' 7) := by
    decide +kernel
  have hread : Token.ofText "PRINT 07;@x" =
      .ok [⟨.print, .text "PRINT", 0⟩, ⟨.integer, .integer 7, 6⟩, ⟨.lineEnd, .text ";", 8⟩,
        ⟨.directive, .text "@x", 9⟩] := by decide +kernel
  exact ⟨hp, (htokens _).trans hopen, (htokens _).trans hread⟩

end Tally
