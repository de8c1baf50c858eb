import Tally.Proofs.Layout

/-! What stands where a scanner gets stuck. A step fails exactly on an obstacle, and which one it is
decides how it fails. -/

namespace Tally

open Lexeme Segment

/-- The front of a text on which a step fails, and the error for each offset of it. -/
inductive Obstacle : List Char → (Nat → LexicalError) → Prop where
  | openText {cs} (h : throughClosing '"' cs = none) :
      Obstacle ('"' :: cs) (.unterminatedString '"')
  | number {digits behind} (h : TooLarge digits behind) :
      Obstacle (digits ++ behind) (.integerOutOfRange (String.ofList digits))
  | sigil {mark cs} (hmark : mark = '@' ∨ mark = '$') (h : ∀ c ∈ cs.head?, ¬ NameChar c) :
      Obstacle (mark :: cs) (.unexpectedCharacter mark)
  | word {cs} (h : ¬ ['R', 'I', 'N', 'T'] <+: cs) : Obstacle ('P' :: cs) (.unexpectedCharacter 'P')
  | unknown {c cs} (h : ∀ rule ∈ rules, ¬ rule.form.Begins c) :
      Obstacle (c :: cs) (.unexpectedCharacter c)

section Forms

variable {rule : Rule} {form : Form} {accepts : Char → Bool} {c delimiter : Char} {cs : List Char}

theorem Lexeme.Form.eq_quoted_of_unclosed (h : form.extent c cs = some (.unclosed delimiter)) :
    form = .quoted delimiter ∧ c = delimiter ∧ throughClosing delimiter cs = none := by
  cases form with
  | quoted mark =>
    simp only [extent, Option.ite_none_right_eq_some] at h
    obtain ⟨rfl, h⟩ := h
    split at h
    case h_1 => simp at h
    case h_2 hnone =>
      cases h
      exact ⟨rfl, rfl, hnone⟩
  | _ => simp [extent] at h

theorem quote_of_rule (hr : rule ∈ rules) (h : rule.form = .quoted delimiter) :
    delimiter = '"' := by
  cases listed_of_mem hr <;> cases h
  rfl

theorem takeWhile_eq_nil_iff : cs.takeWhile accepts = [] ↔ ∀ c ∈ cs.head?, ¬ accepts c := by
  cases cs <;> simp [List.takeWhile_cons]

/-- Only behind the first character of a sigil or of a word can it turn out that no lexeme of the
form begins there. -/
theorem Lexeme.Form.sigil_or_word (hc : form.Begins c) (h : form.extent c cs = none) :
    (∃ accepts, form = .sigil c accepts ∧ ∀ d ∈ cs.head?, ¬ accepts d) ∨
      ∃ others, form = .word c others ∧ ¬ others <+: cs := by
  cases form with
  | sigil mark accepts =>
    obtain rfl : c = mark := hc
    refine .inl ⟨accepts, rfl, takeWhile_eq_nil_iff.mp ?_⟩
    by_contra hne
    simp [extent, hne] at h
  | word first others =>
    obtain rfl : c = first := hc
    refine .inr ⟨others, rfl, fun hprefix => ?_⟩
    simp [extent, hprefix] at h
  | quoted mark =>
    obtain rfl : c = mark := hc
    simp only [extent, if_true] at h
    split at h <;> simp at h
  | run | oneOf | comment => simp_all [extent, Begins]

theorem sigil_of_rule (hr : rule ∈ rules) (h : rule.form = .sigil c accepts) :
    (c = '@' ∨ c = '$') ∧ accepts = isNameChar := by
  cases listed_of_mem hr <;> cases h
  · exact ⟨.inl rfl, rfl⟩
  · exact ⟨.inr rfl, rfl⟩

theorem word_of_rule {others : List Char} (hr : rule ∈ rules) (h : rule.form = .word c others) :
    c = 'P' ∧ others = ['R', 'I', 'N', 'T'] := by
  cases listed_of_mem hr <;> cases h
  exact ⟨rfl, rfl⟩

end Forms

section Steps

variable {rule : Rule} {c : Char} {text cs : List Char} {e : LexicalError}
  {error : Nat → LexicalError} {o n : Nat}

theorem step_of_extent (hr : rule ∈ rules) (hc : rule.form.Begins c)
    (h : rule.form.extent c cs = none) (o : Nat) :
    Scanner.step rules c cs o = .failed (.unexpectedCharacter c o) 0 := by
  have hfirst : firstMatch rules c cs = none := by
    rw [firstMatch_eq rules_apart hr hc, h]
    rfl
  rw [Scanner.step, hfirst]

theorem obstacle_of_extent (hr : rule ∈ rules) (hc : rule.form.Begins c)
    (h : rule.form.extent c cs = none) : Obstacle (c :: cs) (.unexpectedCharacter c) := by
  rcases Form.sigil_or_word hc h with ⟨accepts, hform, hhead⟩ | ⟨others, hform, hprefix⟩
  · obtain ⟨hmark, rfl⟩ := sigil_of_rule hr hform
    exact .sigil hmark fun d hd => mt isNameChar_iff.mpr (hhead d hd)
  · obtain ⟨rfl, rfl⟩ := word_of_rule hr hform
    exact .word hprefix

theorem Obstacle.step_eq (h : Obstacle text error) :
    ∃ c cs, text = c :: cs ∧ ∀ o, ∃ n, Scanner.step rules c cs o = .failed (error o) n := by
  cases h with
  | @openText cs h =>
    have hr : (⟨.quoted '"', .emit .text .unquoted⟩ : Rule) ∈ rules := by simp [rules]
    have hfirst : firstMatch rules '"' cs = some (⟨.quoted '"', .emit .text .unquoted⟩,
        .unclosed '"') := by
      rw [firstMatch_eq rules_apart hr rfl]
      simp [Form.extent, h]
    exact ⟨'"', cs, rfl, fun o => ⟨0, by rw [Scanner.step, hfirst]⟩⟩
  | @number digits behind h =>
    obtain ⟨d, ds, rfl⟩ := List.exists_cons_of_ne_nil h.run.ne_nil
    exact ⟨d, ds ++ behind, rfl, fun o => ⟨_, h.step_eq o⟩⟩
  | @sigil mark cs hmark h =>
    have hnil : cs.takeWhile isNameChar = [] :=
      takeWhile_eq_nil_iff.mpr fun d hd => mt isNameChar_iff.mp (h d hd)
    obtain ⟨rule, hr, hform⟩ : ∃ rule ∈ rules, rule.form = .sigil mark isNameChar := by
      rcases hmark with rfl | rfl <;> simp [rules, symbol]
    refine ⟨mark, cs, rfl, fun o => ⟨0, step_of_extent hr (by rw [hform]; rfl) ?_ o⟩⟩
    rw [hform]
    simp [Form.extent, hnil]
  | @word cs h =>
    have hr : (⟨.word 'P' ['R', 'I', 'N', 'T'], .emit .print .verbatim⟩ : Rule) ∈ rules := by
      simp [rules]
    refine ⟨'P', cs, rfl, fun o => ⟨0, step_of_extent hr rfl ?_ o⟩⟩
    simp only [Form.extent, true_and, if_neg h]
  | @unknown c cs h =>
    have hfirst : firstMatch rules c cs = none := by
      rw [firstMatch, List.findSome?_eq_none_iff]
      intro rule hr
      rw [Form.extent_eq_none (h rule hr)]
      rfl
    exact ⟨c, cs, rfl, fun o => ⟨0, by rw [Scanner.step, hfirst]⟩⟩

/-- The errors of an obstacle differ in where they are. -/
theorem Obstacle.relocate_eq (h : Obstacle text error) (g : Nat → Nat) (o : Nat) :
    (error o).relocate g = error (g o) := by
  cases h <;> rfl

theorem Obstacle.offset_eq (h : Obstacle text error) (o : Nat) : (error o).offset = o := by
  cases h <;> rfl

theorem Obstacle.not_blank (h : Obstacle (c :: cs) error) : ¬ Blank c := by
  generalize htext : c :: cs = text at h
  cases h with
  | openText | word =>
    cases htext
    simp [Blank]
  | @number digits behind h =>
    obtain ⟨b, digits, rfl⟩ := List.exists_cons_of_ne_nil h.run.ne_nil
    cases htext
    exact not_blank_of_digit (h.run.accepted c (by simp))
  | sigil hmark =>
    cases htext
    rcases hmark with rfl | rfl <;> simp [Blank]
  | unknown h =>
    cases htext
    exact mt isBlank_iff.mpr (h ⟨.run isBlank, .skip⟩ (by simp [rules]))

theorem Obstacle.tokens_eq (h : Obstacle text error) (o : Nat) :
    Scanner.tokens rules ⟨text, o⟩ = .error (error o) := by
  obtain ⟨c, cs, rfl, hstep⟩ := h.step_eq
  obtain ⟨n, hstep⟩ := hstep o
  rw [Scanner.tokens_cons, hstep]

theorem exists_obstacle (h : Scanner.step rules c cs o = .failed e n) :
    ∃ error, Obstacle (c :: cs) error ∧ e = error o := by
  unfold Scanner.step at h
  split at h
  case h_1 hfirst =>
    cases h
    refine ⟨.unexpectedCharacter c, ?_, rfl⟩
    by_cases hbegins : ∃ rule ∈ rules, rule.form.Begins c
    · obtain ⟨rule, hr, hc⟩ := hbegins
      rw [firstMatch_eq rules_apart hr hc, Option.map_eq_none_iff] at hfirst
      exact obstacle_of_extent hr hc hfirst
    · exact .unknown fun rule hr hc => hbegins ⟨rule, hr, hc⟩
  case h_2 delimiter hfirst =>
    obtain ⟨hr, hext⟩ := rule_of_firstMatch hfirst
    obtain ⟨hform, rfl, hopen⟩ := Form.eq_quoted_of_unclosed hext
    obtain rfl := quote_of_rule hr hform
    cases h
    exact ⟨_, .openText hopen, rfl⟩
  case h_3 rule more hfirst =>
    obtain ⟨hr, hext⟩ := rule_of_firstMatch hfirst
    obtain ⟨run, behind, rfl, rfl, hm⟩ := Form.matches_of_extent hext
    rw [List.take_left] at h
    split at h
    case h_1 => simp at h
    case h_2 kind conversion haction =>
      split at h
      case h_1 => simp at h
      case h_2 hpayload =>
        cases h
        exact ⟨_, .number (tooLarge_of_rule hr hm haction hpayload), rfl⟩

theorem exists_obstacle_of_stuck (h : Stuck text) (hne : text ≠ []) :
    ∃ error, Obstacle text error := by
  obtain ⟨c, cs, rfl⟩ := List.exists_cons_of_ne_nil hne
  obtain ⟨e, n, hstep⟩ := step_of_stuck h 0
  obtain ⟨error, hobstacle, -⟩ := exists_obstacle hstep
  exact ⟨error, hobstacle⟩

/-- How a step fails: on a character that it does not know, on a quote that is never closed, or on
all digits of a number. -/
theorem Scanner.error_of_failed (h : Scanner.step rules c cs o = .failed e n) :
    e = .unexpectedCharacter c o ∨ c = '"' ∧ e = .unterminatedString '"' o ∨
      ∃ digits behind, c :: cs = digits ++ behind ∧ Segment.TooLarge digits behind ∧
        e = .integerOutOfRange (String.ofList digits) o := by
  obtain ⟨error, hobstacle, rfl⟩ := exists_obstacle h
  generalize htext : c :: cs = text at hobstacle
  cases hobstacle with
  | openText =>
    cases htext
    exact .inr (.inl ⟨rfl, rfl⟩)
  | number hdigits => exact .inr (.inr ⟨_, _, rfl, hdigits, rfl⟩)
  | sigil | word | unknown =>
    cases htext
    exact .inl rfl

theorem Scanner.offset_of_failed (h : Scanner.step rules c cs o = .failed e n) : e.offset = o := by
  obtain ⟨error, hobstacle, rfl⟩ := exists_obstacle h
  exact hobstacle.offset_eq o

end Steps

end Tally
