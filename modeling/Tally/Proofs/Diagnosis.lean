import Tally.Proofs.Cursor
import Tally.Proofs.Obstacle
import Tally.Text.Lines

/-! Where a failure is shown. A failure that lies in one place of a text lies on a character of it,
and on one that the failure is about. -/

namespace Tally

open Lexeme Text

/-- The characters that lexemes of a kind begin with. -/
def Kind.Begins (kind : Kind) (c : Char) : Prop :=
  match kind with
  | .var => c = '$'
  | .directive => c = '@'
  | .text => c = '"'
  | .integer => Digit c
  | .print => c = 'P'
  | symbol => (c, symbol) ∈ symbols

open Segment in
/-- Why a program with this text fails, under which title, and where it is shown in the text. The
first stage that fails decides. -/
inductive Diagnosis (text : String) (sink : Sink) : Failure → String → Option Nat → Prop where
  | character {c o} (h : Token.ofText text = .error (.unexpectedCharacter c o))
      (hc : text.toList[o]? = some c) :
      Diagnosis text sink (.lexical (.unexpectedCharacter c o)) "Lexical Error" (some o)
  | openText {o} (h : Token.ofText text = .error (.unterminatedString '"' o))
      (hc : text.toList[o]? = some '"') :
      Diagnosis text sink (.lexical (.unterminatedString '"' o)) "Lexical Error" (some o)
  | number {front digits behind}
      (h : Token.ofText text = .error (.integerOutOfRange (String.ofList digits) front.length))
      (htext : text.toList = front ++ (digits ++ behind)) (hdigits : TooLarge digits behind)
      (hfront : ∀ c ∈ front.getLast?, ¬ Digit c) :
      Diagnosis text sink (.lexical (.integerOutOfRange (String.ofList digits) front.length))
        "Lexical Error" (some front.length)
  | token {tokens t x c} (htokens : Token.ofText text = .ok tokens)
      (h : Program.ofTokens tokens = .error (.unexpectedToken x t.kind t.offset)) (ht : t ∈ tokens)
      (hc : text.toList[t.offset]? = some c) (hbegins : t.kind.Begins c) :
      Diagnosis text sink (.structural (.unexpectedToken x t.kind t.offset)) "Syntax Error"
        (some t.offset)
  | ended {tokens x} (htokens : Token.ofText text = .ok tokens)
      (h : Program.ofTokens tokens = .error (.unexpectedEnd x)) :
      Diagnosis text sink (.structural (.unexpectedEnd x)) "Syntax Error" none
  | fault {tokens program fault} (htokens : Token.ofText text = .ok tokens)
      (hprogram : Program.ofTokens tokens = .ok program)
      (h : (program.run (.fresh sink)).fault = some fault) :
      Diagnosis text sink (.runtime fault) "Runtime Error" none

namespace Segment

variable {s : Segment} {segments : List Segment} {behind cs : List Char} {c : Char} {kind : Kind}
  {payload : Payload}

theorem begins_of_mem_symbols (h : (c, kind) ∈ symbols) : kind.Begins c := by
  cases kind with
  | var | text | integer | print | directive => simp [symbols] at h
  | equal | plus | minus | times | slash | comma | lineEnd => exact h

theorem Fits.begins (h : s.Fits behind) (hs : s.meaning = some (kind, payload)) :
    ∃ c cs, s.text = c :: cs ∧ kind.Begins c := by
  cases h with
  | blanks | comment | lastComment => simp at hs
  | directive h | var h | literal h | print =>
    cases hs
    exact ⟨_, _, rfl, rfl⟩
  | symbol h =>
    cases hs
    exact ⟨_, _, rfl, begins_of_mem_symbols h⟩
  | @number digits _ h =>
    cases hs
    obtain ⟨c, cs, rfl⟩ := List.exists_cons_of_ne_nil h.ne_nil
    exact ⟨c, cs, rfl, h.accepted c (by simp)⟩

theorem not_digit_of_nameChar (h : NameChar c) : ¬ Digit c := by
  rintro ⟨-, hnine⟩
  rcases h with ⟨hupper, -⟩ | ⟨hlower, -⟩ | rfl
  · exact absurd (Char.le_trans hupper hnine) (by decide)
  · exact absurd (Char.le_trans hlower hnine) (by decide)
  · exact absurd hnine (by decide)

theorem not_digit_of_mem_symbols (h : (c, kind) ∈ symbols) : ¬ Digit c := by
  have hall : ∀ p ∈ symbols, ¬ Digit p.1 := by simp [symbols, Digit]
  exact hall _ h

/-- A digit goes on with a number, and so nothing that ends in a digit fits in front of it. -/
theorem Fits.not_digit_of_getLast? {d : Char} (h : s.Fits (c :: cs)) (hc : Digit c)
    (hd : s.text.getLast? = some d) : ¬ Digit d := by
  have hmem := List.mem_of_getLast? hd
  cases h with
  | blanks h => exact fun hdigit => not_blank_of_digit hdigit (h.accepted d hmem)
  | comment h =>
    rw [← List.cons_append, List.getLast?_concat] at hd
    cases hd
    simp [Digit]
  | symbol h =>
    cases hd
    exact not_digit_of_mem_symbols h
  | directive h | var h =>
    rcases List.mem_cons.mp hmem with rfl | hmem
    · simp [Digit]
    · exact not_digit_of_nameChar (h.accepted d hmem)
  | literal h =>
    rw [← List.cons_append, List.getLast?_concat] at hd
    cases hd
    simp [Digit]
  | number h => exact absurd hc (h.ended c rfl)
  | print =>
    cases hd
    simp [Digit]

theorem not_digit_getLast?_of_fit (h : Fit (c :: cs) segments) (hc : Digit c) :
    ∀ d ∈ (textOf segments).getLast?, ¬ Digit d := by
  rcases List.eq_nil_or_concat' segments with rfl | ⟨front, s, rfl⟩
  · simp
  · obtain ⟨hs, -⟩ := (fit_append.mp h).2
    rw [textOf_append, textOf_cons, textOf_nil, List.append_nil,
      List.getLast?_append_of_ne_nil _ hs.ne_nil]
    exact fun d => hs.not_digit_of_getLast? hc

end Segment

namespace Text

/-- The place of a character is in its line, and at its column there. -/
theorem exists_locate {offset : Nat} {ls : List (List Char)} (h : offset < ls.flatten.length) :
    ∃ p shown, locate offset ls = some p ∧ ls[p.line]? = some shown ∧
      shown[p.column]? = ls.flatten[offset]? := by
  induction ls generalizing offset with
  | nil => simp at h
  | cons line others ih =>
    rw [List.flatten_cons] at h ⊢
    by_cases hlt : offset < line.length
    · refine ⟨⟨0, offset, trimmed line⟩, line, by rw [locate, if_pos hlt], rfl, ?_⟩
      rw [List.getElem?_append_left hlt]
    · rw [List.length_append] at h
      obtain ⟨p, found, hp, hfound, hc⟩ := @ih (offset - line.length) (by omega)
      refine ⟨{ p with line := p.line + 1 }, found, ?_, hfound, ?_⟩
      · rw [locate, if_neg hlt, hp]
        rfl
      · rw [List.getElem?_append_right (by omega)]
        exact hc

end Text

section Diagnosis

open Segment

variable {text : String} {sink : Sink} {f : Failure} {title : String} {place : Option Nat} {o : Nat}
  {e : LexicalError} {tokens : List Token} {x : SyntaxError} {t : Token}

theorem diagnosis_of_lexicalError (h : Token.ofText text = .error e) :
    Diagnosis text sink (.lexical e) "Lexical Error" (some e.offset) := by
  obtain ⟨segments, c, cs, n, htext, hfit, -, hstep⟩ := exists_fit_of_error h
  have hc : text.toList[(textOf segments).length]? = some c := by simp [htext]
  obtain rfl | ⟨rfl, rfl⟩ | ⟨digits, behind, hcs, hdigits, rfl⟩ := Scanner.error_of_failed hstep
  · exact .character h hc
  · exact .openText h hc
  · obtain ⟨d, ds, rfl⟩ := List.exists_cons_of_ne_nil hdigits.run.ne_nil
    obtain ⟨rfl, -⟩ := List.cons.inj hcs
    exact .number h (htext.trans (congrArg _ hcs)) hdigits
      (not_digit_getLast?_of_fit hfit (hdigits.run.accepted c (by simp)))

/-- The text has a character where a token begins, and lexemes of its kind begin with that. -/
theorem exists_begins (htokens : Token.ofText text = .ok tokens) (ht : t ∈ tokens) :
    ∃ c, text.toList[t.offset]? = some c ∧ t.kind.Begins c := by
  obtain ⟨segments, hsegments⟩ := exists_segmentation htokens
  rw [ofText_of_segmentation hsegments] at htokens
  cases htokens
  obtain ⟨front, s, rest, rfl, hm, hoffset⟩ := exists_segment_of_mem_tokensOf ht
  obtain ⟨c, cs, hs, hbegins⟩ := (fit_append.mp hsegments.fit).2.1.begins hm
  refine ⟨c, ?_, hbegins⟩
  rw [← hsegments.covers, hoffset, Nat.zero_add]
  simp [hs]

theorem diagnosis_of_syntaxError (htokens : Token.ofText text = .ok tokens)
    (h : Program.ofTokens tokens = .error x) :
    Diagnosis text sink (.structural x) "Syntax Error" x.offset? := by
  cases x with
  | unexpectedEnd => exact .ended htokens h
  | unexpectedToken expected kind o =>
    obtain ⟨n, hread⟩ := Program.ofTokens_eq_iff.mp h
    obtain ⟨k, t, ht, rfl, rfl, -⟩ := (Program.halts_of_read hread).of_unexpectedToken
    have hmem := List.mem_of_getElem? ht
    obtain ⟨c, hc, hbegins⟩ := exists_begins htokens hmem
    exact .token htokens h hmem hc hbegins

theorem diagnosis_of_diagnose (h : diagnose text sink = some f) :
    Diagnosis text sink f f.title f.offset? := by
  unfold diagnose Program.ofText at h
  cases htokens : Token.ofText text with
  | error e =>
    simp only [htokens] at h
    cases h
    exact diagnosis_of_lexicalError htokens
  | ok tokens =>
    simp only [htokens] at h
    cases hprogram : Program.ofTokens tokens with
    | error x =>
      simp only [hprogram, Except.mapError] at h
      cases h
      exact diagnosis_of_syntaxError htokens hprogram
    | ok program =>
      simp only [hprogram, Except.mapError, Option.map_eq_some_iff] at h
      obtain ⟨fault, hfault, rfl⟩ := h
      exact .fault htokens hprogram hfault

theorem Diagnosis.diagnose_eq (h : Diagnosis text sink f title place) :
    diagnose text sink = some f ∧ f.title = title ∧ f.offset? = place := by
  cases h with
  | character h | openText h | number h => exact ⟨by simp [diagnose, Program.ofText, h], rfl, rfl⟩
  | token htokens h | ended htokens h =>
    exact ⟨by simp [diagnose, Program.ofText, htokens, h, Except.mapError], rfl, rfl⟩
  | fault htokens hprogram h =>
    exact ⟨by simp [diagnose, Program.ofText, htokens, hprogram, h, Except.mapError], rfl, rfl⟩

theorem Diagnosis.lt_length (h : Diagnosis text sink f title (some o)) : o < text.length := by
  rw [← String.length_toList]
  cases h with
  | character _ hc | openText _ hc => exact (List.getElem?_eq_some_iff.mp hc).1
  | token _ _ _ hc => exact (List.getElem?_eq_some_iff.mp hc).1
  | number _ htext hdigits =>
    have hpos := List.length_pos_iff.mpr hdigits.run.ne_nil
    rw [htext, List.length_append, List.length_append]
    omega

theorem diagnose_eq_none_iff : diagnose text sink = none ↔ ∃ tokens program,
    Token.ofText text = .ok tokens ∧ Program.ofTokens tokens = .ok program ∧
      (program.run (.fresh sink)).fault = none := by
  unfold diagnose Program.ofText
  cases Token.ofText text with
  | error e => simp
  | ok tokens => cases hprogram : Program.ofTokens tokens <;> simp [hprogram, Except.mapError]

end Diagnosis

/-- A program fails exactly if one of the stages does, and then the first stage that does gives the
title and decides whether the failure lies in one place of the text. There is a character at that
place, which is the one that is not known, or the quote that is never closed, or the first of all
digits of the number out of range, or the first one of the token that is not what was expected. The
line and the column at which the failure is shown are those of this character. -/
theorem diagnosis_of_text (text : String) (sink : Sink) :
    (diagnose text sink = none ↔ ∃ tokens program, Token.ofText text = .ok tokens ∧
      Program.ofTokens tokens = .ok program ∧ (program.run (.fresh sink)).fault = none) ∧
    (∀ f title place, (diagnose text sink = some f ∧ f.title = title ∧ f.offset? = place) ↔
      Diagnosis text sink f title place) ∧
    ∀ f o, diagnose text sink = some f → f.offset? = some o →
      o < text.length ∧ ∃ p shown, locate o (lines text.toList) = some p ∧
        (lines text.toList)[p.line]? = some shown ∧ shown[p.column]? = text.toList[o]? := by
  refine ⟨diagnose_eq_none_iff, ?_, ?_⟩
  · intro f title place
    refine ⟨?_, Diagnosis.diagnose_eq⟩
    rintro ⟨h, rfl, rfl⟩
    exact diagnosis_of_diagnose h
  · intro f o h ho
    have hlt := (ho ▸ diagnosis_of_diagnose h).lt_length
    have hplace := @exists_locate o (lines text.toList)
    rw [flatten_lines, String.length_toList] at hplace
    exact ⟨hlt, hplace hlt⟩

/-- Ends with an operator that begins no statement, on a line of its own. -/
def strayText : String := "PRINT 1\r\n;+2"

/-- A number out of range right behind a name. -/
def hugeText : String := "$a=7;$b9999999999999999999x"

theorem strayText_diagnosis :
    (let f := Failure.structural (.unexpectedToken .statement .plus 10);
      diagnose strayText .unlimited = some f ∧
      Diagnosis strayText .unlimited f "Syntax Error" (some 10) ∧ 10 < strayText.length ∧
      ∃ p shown, locate 10 (lines strayText.toList) = some p ∧
        (lines strayText.toList)[p.line]? = some shown ∧ shown[p.column]? = some '+') ∧
    Diagnosis hugeText .unlimited (.lexical (.integerOutOfRange "9999999999999999999" 7))
      "Lexical Error" (some 7) ∧
    Diagnosis "PRINT $a" .unlimited (.runtime (.undefinedVariable "a")) "Runtime Error" none ∧
    ∃ tokens program, Token.ofText "PRINT 7" = .ok tokens ∧ Program.ofTokens tokens = .ok program ∧
      (program.run (.fresh .unlimited)).fault = none := by
  obtain ⟨-, hstray, hplace⟩ := diagnosis_of_text strayText .unlimited
  obtain ⟨-, hhuge, -⟩ := diagnosis_of_text hugeText .unlimited
  obtain ⟨-, hunbound, -⟩ := diagnosis_of_text "PRINT $a" .unlimited
  obtain ⟨hnone, -, -⟩ := diagnosis_of_text "PRINT 7" .unlimited
  have hplus : diagnose strayText .unlimited =
      some (.structural (.unexpectedToken .statement .plus 10)) := by decide +kernel
  refine ⟨⟨hplus, (hstray _ _ _).mp ⟨hplus, rfl, rfl⟩, hplace _ _ hplus rfl⟩,
    (hhuge _ _ _).mp ⟨by decide +kernel, rfl, rfl⟩, (hunbound _ _ _).mp ⟨by decide +kernel, rfl, rfl⟩,
    hnone.mp (by decide +kernel)⟩

end Tally
