import Tally.Proofs.Lexeme
import Tally.Token.Scanner

/-! The lexical grammar. A scanner steps over exactly the segments of the grammar, and
gets stuck where none of them fits. -/

namespace Tally

open Lexeme

def Blank (c : Char) : Prop := c = ' ' ∨ c = '\t' ∨ c = '\r'

def NameChar (c : Char) : Prop := 'A' ≤ c ∧ c ≤ 'Z' ∨ 'a' ≤ c ∧ c ≤ 'z' ∨ c = '_'

def Digit (c : Char) : Prop := '0' ≤ c ∧ c ≤ '9'

/-- The characters that are segments on their own. -/
def symbols : List (Char × Kind) :=
  [('\n', .lineEnd), (';', .lineEnd), ('=', .equal), (',', .comma), ('+', .plus), ('-', .minus),
   ('*', .times), ('/', .slash)]

structure Segment where
  text : List Char
  /-- Kind and payload of the token, unless the segment is layout. -/
  meaning : Option (Kind × Payload)

/-- The segments there are, each in front of the text behind it. -/
inductive Segment.Fits : Segment → List Char → Prop where
  | blanks {run behind} (h : MaximalRun Blank run behind) : Fits ⟨run, none⟩ behind
  | comment {body behind} (h : '\n' ∉ body) : Fits ⟨'%' :: (body ++ ['\n']), none⟩ behind
  | lastComment {body} (h : '\n' ∉ body) : Fits ⟨'%' :: body, none⟩ []
  | symbol {c kind behind} (h : (c, kind) ∈ symbols) :
      Fits ⟨[c], some (kind, .text (String.singleton c))⟩ behind
  | directive {name behind} (h : MaximalRun NameChar name behind) :
      Fits ⟨'@' :: name, some (.directive, .text (String.ofList ('@' :: name)))⟩ behind
  | var {name behind} (h : MaximalRun NameChar name behind) :
      Fits ⟨'$' :: name, some (.var, .text (String.ofList name))⟩ behind
  | literal {body behind} (h : ∀ u ∈ body, u.Valid '"') :
      Fits ⟨'"' :: (LiteralChar.written body ++ ['"']),
        some (.text, .text (String.ofList (body.map LiteralChar.char)))⟩ behind
  | number {digits behind} (h : MaximalRun Digit digits behind)
      (hn : Nat.ofDigitChars 10 digits 0 < 2 ^ 63) :
      Fits ⟨digits, some (.integer, .integer (.ofNat (Nat.ofDigitChars 10 digits 0)))⟩ behind
  | print {behind} : Fits ⟨['P', 'R', 'I', 'N', 'T'], some (.print, .text "PRINT")⟩ behind

variable {c : Char} {cs behind text characters : List Char} {kind : Kind} {s : Segment}
  {meaning : Option (Kind × Payload)} {rule : Rule} {o : Nat}

theorem isBlank_iff : isBlank c ↔ Blank c := by
  simp [isBlank, Blank, or_assoc]

theorem isNameChar_iff : isNameChar c ↔ NameChar c := by
  have hupper : c.isUpper ↔ 'A' ≤ c ∧ c ≤ 'Z' := decide_eq_true_iff
  have hlower : c.isLower ↔ 'a' ≤ c ∧ c ≤ 'z' :=
    Bool.and_eq_true_iff.trans (and_congr decide_eq_true_iff decide_eq_true_iff)
  have halpha : c.isAlpha = (c.isUpper || c.isLower) := rfl
  simp [isNameChar, NameChar, halpha, hupper, hlower, or_assoc]

theorem isDigit_iff : c.isDigit ↔ Digit c := by
  simp [Char.isDigit, Digit, Char.le_def]

theorem not_blank_of_digit (h : Digit c) : ¬ Blank c := by
  rintro (rfl | rfl | rfl) <;> exact absurd h (by simp [Digit])

theorem not_nameChar_of_blank (h : Blank c) : ¬ NameChar c := by
  rcases h with rfl | rfl | rfl <;> simp [NameChar]

theorem digit_of_mem_toDigits {k : Nat} (h : c ∈ Nat.toDigits 10 k) : Digit c :=
  isDigit_iff.mp (Nat.isDigit_of_mem_toDigits (by decide) (by decide) h)

theorem exists_symbol (h : (c, kind) ∈ symbols) :
    ∃ characters, symbol characters kind ∈ rules ∧ c ∈ characters := by
  simp only [symbols, List.mem_cons, List.not_mem_nil, or_false, Prod.mk.injEq] at h
  rcases h with ⟨rfl, rfl⟩ | ⟨rfl, rfl⟩ | ⟨rfl, rfl⟩ | ⟨rfl, rfl⟩ | ⟨rfl, rfl⟩ | ⟨rfl, rfl⟩ |
    ⟨rfl, rfl⟩ | ⟨rfl, rfl⟩
  · exact ⟨['\n', ';'], by simp [rules], by simp⟩
  · exact ⟨['\n', ';'], by simp [rules], by simp⟩
  · exact ⟨['='], by simp [rules], by simp⟩
  · exact ⟨[','], by simp [rules], by simp⟩
  · exact ⟨['+'], by simp [rules], by simp⟩
  · exact ⟨['-'], by simp [rules], by simp⟩
  · exact ⟨['*'], by simp [rules], by simp⟩
  · exact ⟨['/'], by simp [rules], by simp⟩

namespace Segment

/-- The rule that reads a segment. -/
theorem Fits.exists_rule (h : s.Fits behind) :
    ∃ c cs, ∃ rule ∈ rules, s.text = c :: cs ∧ rule.form.Begins c ∧
      rule.form.Matches (c :: cs) behind ∧ rule.result? (c :: cs) = some s.meaning := by
  cases h with
  | @blanks run _ h =>
    obtain ⟨c, cs, rfl⟩ := List.exists_cons_of_ne_nil h.ne_nil
    exact ⟨c, cs, ⟨.run isBlank, .skip⟩, by simp [rules], rfl,
      isBlank_iff.mpr (h.accepted c (by simp)), h.congr fun _ => isBlank_iff.symm, rfl⟩
  | comment h =>
    exact ⟨_, _, ⟨.comment '%', .skip⟩, by simp [rules], rfl, rfl, ⟨_, h, .inl rfl⟩, rfl⟩
  | lastComment h =>
    exact ⟨_, _, ⟨.comment '%', .skip⟩, by simp [rules], rfl, rfl, ⟨_, h, .inr ⟨rfl, rfl⟩⟩, rfl⟩
  | @symbol c kind _ h =>
    obtain ⟨characters, hr, hc⟩ := exists_symbol h
    exact ⟨_, _, _, hr, rfl, hc, ⟨c, hc, rfl⟩, rfl⟩
  | directive h =>
    exact ⟨_, _, ⟨.sigil '@' isNameChar, .emit .directive .verbatim⟩, by simp [rules], rfl, rfl,
      ⟨_, h.congr fun _ => isNameChar_iff.symm, rfl⟩, rfl⟩
  | var h =>
    exact ⟨_, _, ⟨.sigil '$' isNameChar, .emit .var .behindSigil⟩, by simp [rules], rfl, rfl,
      ⟨_, h.congr fun _ => isNameChar_iff.symm, rfl⟩, rfl⟩
  | literal h =>
    exact ⟨_, _, ⟨.quoted '"', .emit .text .unquoted⟩, by simp [rules], rfl, rfl,
      ⟨by decide, _, h, rfl⟩, by simp [Rule.result?, Conversion.payload?, unescape_written h]⟩
  | @number digits _ h hn =>
    obtain ⟨c, cs, rfl⟩ := List.exists_cons_of_ne_nil h.ne_nil
    refine ⟨c, cs, ⟨.run Char.isDigit, .emit .integer .number⟩, by simp [rules], rfl,
      isDigit_iff.mpr (h.accepted c (by simp)), h.congr fun _ => isDigit_iff.symm, ?_⟩
    have hp : Conversion.payload? .number (c :: cs) =
        some (.integer (.ofNat (Nat.ofDigitChars 10 (c :: cs) 0))) := by
      rw [payload?_number, if_pos hn]
    simp [Rule.result?, hp]
  | print =>
    exact ⟨_, _, ⟨.word 'P' ['R', 'I', 'N', 'T'], .emit .print .verbatim⟩, by simp [rules], rfl,
      rfl, rfl, rfl⟩

theorem mem_symbols (h : symbol characters kind ∈ rules) (hc : c ∈ characters) :
    (c, kind) ∈ symbols := by
  simp only [rules, symbol, List.mem_cons, List.not_mem_nil, or_false, Rule.mk.injEq,
    Form.oneOf.injEq, Action.emit.injEq, reduceCtorEq, false_and, and_true, false_or] at h
  rcases h with ⟨rfl, rfl⟩ | ⟨rfl, rfl⟩ | ⟨rfl, rfl⟩ | ⟨rfl, rfl⟩ | ⟨rfl, rfl⟩ | ⟨rfl, rfl⟩ |
    ⟨rfl, rfl⟩ <;> simp_all [symbols]

/-- What a rule reads is a segment. -/
theorem fits_of_rule (hr : rule ∈ rules) (hm : rule.form.Matches text behind)
    (hres : rule.result? text = some meaning) : Fits ⟨text, meaning⟩ behind := by
  cases listed_of_mem hr with
  | blanks =>
    cases hres
    exact .blanks (hm.congr fun _ => isBlank_iff)
  | comment =>
    cases hres
    obtain ⟨body, hbody, rfl | ⟨rfl, rfl⟩⟩ := hm
    · exact .comment hbody
    · exact .lastComment hbody
  | symbol h =>
    obtain ⟨c, hc, rfl⟩ := hm
    cases hres
    exact .symbol (mem_symbols h hc)
  | directive =>
    obtain ⟨name, hname, rfl⟩ := hm
    cases hres
    exact .directive (hname.congr fun _ => isNameChar_iff)
  | var =>
    obtain ⟨name, hname, rfl⟩ := hm
    cases hres
    exact .var (hname.congr fun _ => isNameChar_iff)
  | literal =>
    obtain ⟨-, body, hbody, rfl⟩ := hm
    simp only [Rule.result?, Conversion.payload?, List.tail_cons, List.dropLast_concat,
      unescape_written hbody, Option.map_some, Option.some.injEq] at hres
    subst hres
    exact .literal hbody
  | number =>
    simp only [Rule.result?, payload?_number, Option.map_eq_some_iff,
      Option.ite_none_right_eq_some, Option.some.injEq] at hres
    obtain ⟨_, ⟨hn, rfl⟩, rfl⟩ := hres
    exact .number (hm.congr fun _ => isDigit_iff) hn
  | print =>
    cases hm
    cases hres
    exact .print

/-- The step of a scanner over a segment. -/
def step (s : Segment) (offset : Nat) : Scanner.Step :=
  match s.meaning with
  | none => .blank s.text.tail.length
  | some (kind, payload) => .token ⟨kind, payload, offset⟩ s.text.tail.length

theorem step_of_rule (hr : rule ∈ rules) (hc : rule.form.Begins c)
    (hm : rule.form.Matches (c :: cs) behind) (hres : rule.result? (c :: cs) = some meaning) :
    Scanner.step rules c (cs ++ behind) o = step ⟨c :: cs, meaning⟩ o := by
  have hfirst : firstMatch rules c (cs ++ behind) = some (rule, .closed cs.length) := by
    rw [firstMatch_eq rules_apart hr hc, Form.extent_of_matches hm]
    rfl
  rw [Scanner.step, hfirst]
  obtain ⟨form, action⟩ := rule
  cases action with
  | skip =>
    cases hres
    rfl
  | emit kind conversion =>
    simp only [Rule.result?, Option.map_eq_some_iff] at hres
    obtain ⟨payload, hp, rfl⟩ := hres
    simp [step, hp]

theorem Fits.step_eq (h : s.Fits behind) :
    ∃ c cs, s.text = c :: cs ∧ ∀ o, Scanner.step rules c (cs ++ behind) o = s.step o := by
  obtain ⟨c, cs, rule, hr, htext, hc, hm, hres⟩ := h.exists_rule
  refine ⟨c, cs, htext, fun o => ?_⟩
  rw [step_of_rule hr hc hm hres, ← htext]

/-- No segment fits at the front of the text. -/
def Stuck (text : List Char) : Prop := ∀ (s : Segment) (behind : List Char),
  text = s.text ++ behind → ¬ s.Fits behind

theorem step_of_stuck (h : Stuck (c :: cs)) (o : Nat) :
    ∃ e n, Scanner.step rules c cs o = .failed e n := by
  unfold Scanner.step
  split
  case h_1 => exact ⟨_, _, rfl⟩
  case h_2 => exact ⟨_, _, rfl⟩
  case h_3 rule n hfirst =>
    obtain ⟨hr, hext⟩ := rule_of_firstMatch hfirst
    obtain ⟨run, behind, rfl, rfl, hm⟩ := Form.matches_of_extent hext
    -- the rule reaches to the end of a lexeme, so only a number without payload is left
    have hres : rule.result? (c :: run) = none := by
      rw [Option.eq_none_iff_forall_ne_some]
      intro meaning hres
      exact h ⟨c :: run, meaning⟩ behind rfl (fits_of_rule hr hm hres)
    obtain ⟨form, action⟩ := rule
    cases action with
    | skip => simp [Rule.result?] at hres
    | emit kind conversion =>
      have hp : conversion.payload? (c :: run) = none := by simpa [Rule.result?] using hres
      simp [hp]

end Segment

end Tally
