import Tally.Proofs.Concatenation
import Tally.Proofs.Offsets
import Tally.Run.Pipeline

/-! Layout between lexemes. Blanks and comments that are put in where a scanner is between two
lexemes move what stands behind them, and change nothing else. -/

namespace Tally

open Lexeme

/-- Blanks, and comments with the newlines that end them. -/
inductive Layout : List Char → Prop where
  | nil : Layout []
  | blank {c cs} (hc : Blank c) (h : Layout cs) : Layout (c :: cs)
  | comment {body cs} (hb : '\n' ∉ body) (h : Layout cs) : Layout ('%' :: (body ++ '\n' :: cs))

/-- How far a step goes. -/
def Scanner.Step.reach : Step → Nat
  | blank more | token _ more => 1 + more
  | failed _ passed => passed

/-- The second scanner is what is left of the first one after some matches of rules, which may go
on behind a number out of range. -/
inductive Scanner.Reaches : Scanner → Scanner → Prop where
  | refl {s} : Reaches s s
  | step {c cs o n s} (h : (step rules c cs o).reach = n)
      (hs : Reaches (behind ⟨c :: cs, o⟩ n) s) : Reaches ⟨c :: cs, o⟩ s

/-- The text with more characters in front of those behind so many. -/
def insertAt (text : String) (p : Nat) (inserted : List Char) : String :=
  String.ofList (text.toList.take p ++ (inserted ++ text.toList.drop p))

/-- Where a character is after so many others are put in front of those behind so many. -/
def pushed (p n o : Nat) : Nat := if o < p then o else o + n

def Failure.relocate (g : Nat → Nat) : Failure → Failure
  | lexical e => .lexical (e.relocate g)
  | structural e => .structural (e.relocate g)
  | runtime fault => .runtime fault

namespace Segment

/-- All digits of a number that is out of range. -/
structure TooLarge (digits behind : List Char) : Prop where
  run : MaximalRun Digit digits behind
  le_value : 2 ^ 63 ≤ Nat.ofDigitChars 10 digits 0

variable {accepts : Char → Prop} {run body layout behind others digits : List Char} {s : Segment}
  {segments : List Segment} {c : Char} {cs : List Char} {o : Nat}

theorem layout_append {more : List Char} (h : Layout layout) (hm : Layout more) :
    Layout (layout ++ more) := by
  induction h with
  | nil => exact hm
  | blank hc _ ih => exact .blank hc ih
  | comment hb _ ih => simpa using .comment hb ih

theorem layout_of_blanks (h : ∀ c ∈ run, Blank c) : Layout run := by
  induction run with
  | nil => exact .nil
  | cons c run ih => exact .blank (h c (by simp)) (ih fun d hd => h d (by simp [hd]))

theorem Fits.tokens_of_layout (h : s.Fits behind) (hs : s.meaning = none) (o : Nat) :
    Scanner.tokens rules ⟨s.text ++ behind, o⟩ =
      Scanner.tokens rules ⟨behind, o + s.text.length⟩ := by
  rw [h.tokens_eq, hs]
  cases Scanner.tokens rules ⟨behind, o + s.text.length⟩ <;> rfl

/-- One blank may be passed on its own, also at the beginning of a longer run. -/
theorem tokens_blank (hc : Blank c) (cs : List Char) (o : Nat) :
    Scanner.tokens rules ⟨c :: cs, o⟩ = Scanner.tokens rules ⟨cs, o + 1⟩ := by
  have hall : ∀ d ∈ cs.takeWhile isBlank, Blank d :=
    fun d hd => isBlank_iff.mp (accepted_takeWhile hd)
  have hend : ∀ d ∈ (cs.dropWhile isBlank).head?, ¬ Blank d := fun d hd =>
    mt isBlank_iff.mpr (dropWhile_ended isBlank cs d hd)
  have hrun : MaximalRun Blank (c :: cs.takeWhile isBlank) (cs.dropWhile isBlank) := by
    refine ⟨by simp, ?_, hend⟩
    intro d hd
    rcases List.mem_cons.mp hd with rfl | hd
    · exact hc
    · exact hall d hd
  have hwhole := (Fits.blanks hrun).tokens_of_layout rfl o
  rw [List.cons_append, List.takeWhile_append_dropWhile] at hwhole
  rw [hwhole]
  by_cases hnil : cs.takeWhile isBlank = []
  · have hcs := List.takeWhile_append_dropWhile (p := isBlank) (l := cs)
    rw [hnil, List.nil_append] at hcs
    rw [hcs, hnil]
    rfl
  · have hrest := (Fits.blanks ⟨hnil, hall, hend⟩).tokens_of_layout rfl (o + 1)
    rw [List.takeWhile_append_dropWhile] at hrest
    rw [hrest, List.length_cons, Nat.add_assoc, Nat.add_comm 1]

theorem tokens_layout (h : Layout layout) (behind : List Char) (o : Nat) :
    Scanner.tokens rules ⟨layout ++ behind, o⟩ =
      Scanner.tokens rules ⟨behind, o + layout.length⟩ := by
  induction h generalizing o with
  | nil => rfl
  | blank hc _ ih =>
    rw [List.cons_append, tokens_blank hc, ih, List.length_cons, Nat.add_assoc, Nat.add_comm 1]
  | @comment body cs hb _ ih =>
    have hcomment := (@Fits.comment body (cs ++ behind) hb).tokens_of_layout rfl o
    have htext : '%' :: (body ++ '\n' :: cs) ++ behind =
        '%' :: (body ++ ['\n']) ++ (cs ++ behind) := by simp
    have hlen : ('%' :: (body ++ ['\n'])).length + cs.length =
        ('%' :: (body ++ '\n' :: cs)).length := by
      simp
      omega
    rw [htext, hcomment, ih, ← hlen, Nat.add_assoc]

/-- Layout behind a comment that has no end belongs to it, up to the first newline. -/
theorem tokens_lastComment (hb : '\n' ∉ body) (h : Layout layout) (o : Nat) :
    Scanner.tokens rules ⟨'%' :: (body ++ layout), o⟩ = .ok [] := by
  induction h generalizing body with
  | nil =>
    have hcomment := (Fits.lastComment hb).tokens_of_layout rfl o
    rw [List.append_nil] at hcomment ⊢
    rw [hcomment, Scanner.tokens_nil]
  | @blank c cs hc _ ih =>
    have hline : '\n' ∉ body ++ [c] := by
      rcases hc with rfl | rfl | rfl <;> simpa using hb
    simpa using ih hline
  | @comment other cs hother h ih =>
    have hline : '\n' ∉ body ++ '%' :: other := by simpa using ⟨hb, hother⟩
    have hcomment := (@Fits.comment _ cs hline).tokens_of_layout rfl o
    have htext : '%' :: (body ++ '%' :: (other ++ '\n' :: cs)) =
        '%' :: (body ++ '%' :: other ++ ['\n']) ++ cs := by simp
    have hrest := tokens_layout h [] (o + ('%' :: (body ++ '%' :: other ++ ['\n'])).length)
    rw [List.append_nil] at hrest
    rw [htext, hcomment, hrest, Scanner.tokens_nil]

theorem MaximalRun.of_layout (h : MaximalRun accepts run behind) (hl : Layout layout)
    (ha : ∀ c, Blank c ∨ c = '%' → ¬ accepts c) : MaximalRun accepts run (layout ++ behind) := by
  refine ⟨h.ne_nil, h.accepted, ?_⟩
  cases hl with
  | nil => exact h.ended
  | blank hc _ => simpa using ha _ (.inl hc)
  | comment _ _ => simpa using ha '%' (.inr rfl)

theorem not_digit_of_layout : ∀ c, Blank c ∨ c = '%' → ¬ Digit c := by
  rintro c (hblank | rfl) hdigit
  · exact not_blank_of_digit hdigit hblank
  · exact absurd hdigit (by simp [Digit])

/-- A segment is passed in front of layout too, or both are passed as layout. -/
theorem Fits.tokens_insert (h : s.Fits behind) (hl : Layout layout) (o : Nat) :
    Scanner.tokens rules ⟨s.text ++ (layout ++ behind), o⟩ =
      (Scanner.tokens rules ⟨layout ++ behind, o + s.text.length⟩).map
        ((s.meaning.map fun m => (⟨m.1, m.2, o⟩ : Token)).toList ++ ·) := by
  have hname : ∀ c, Blank c ∨ c = '%' → ¬ NameChar c := by
    rintro c (hblank | rfl)
    · exact not_nameChar_of_blank hblank
    · simp [NameChar]
  cases h with
  | @blanks run _ h =>
    have hboth := tokens_layout (layout_append (layout_of_blanks h.accepted) hl) behind o
    rw [List.append_assoc, List.length_append, ← Nat.add_assoc] at hboth
    rw [hboth, tokens_layout hl]
    cases Scanner.tokens rules ⟨behind, o + run.length + layout.length⟩ <;> rfl
  | comment h => exact (Fits.comment h).tokens_eq o
  | @lastComment body h =>
    rw [List.append_nil]
    have hrest := tokens_layout hl [] (o + ('%' :: body).length)
    rw [List.append_nil] at hrest
    rw [List.cons_append, tokens_lastComment h hl, hrest, Scanner.tokens_nil]
    rfl
  | symbol h => exact (Fits.symbol h).tokens_eq o
  | directive h => exact (Fits.directive (MaximalRun.of_layout h hl hname)).tokens_eq o
  | var h => exact (Fits.var (MaximalRun.of_layout h hl hname)).tokens_eq o
  | literal h => exact (Fits.literal h).tokens_eq o
  | number h hn =>
    exact (Fits.number (MaximalRun.of_layout h hl not_digit_of_layout) hn).tokens_eq o
  | print => exact Fits.print.tokens_eq o

/-- Layout between segments and the text behind them is passed without a trace. -/
theorem tokens_insert (h : Fit behind segments) (hl : Layout layout) (o : Nat) :
    Scanner.tokens rules ⟨textOf segments ++ (layout ++ behind), o⟩ =
      (Scanner.tokens rules ⟨behind, o + (textOf segments).length + layout.length⟩).map
        (tokensOf o segments ++ ·) := by
  induction segments generalizing o with
  | nil =>
    rw [textOf_nil, List.nil_append, tokens_layout hl]
    cases Scanner.tokens rules ⟨behind, o + [].length + layout.length⟩ <;> rfl
  | cons s rest ih =>
    obtain ⟨hs, hrest⟩ := h
    have hfirst : Scanner.tokens rules ⟨s.text ++ (textOf rest ++ (layout ++ behind)), o⟩ =
        (Scanner.tokens rules ⟨textOf rest ++ (layout ++ behind), o + s.text.length⟩).map
          ((s.meaning.map fun m => (⟨m.1, m.2, o⟩ : Token)).toList ++ ·) := by
      cases rest with
      | nil => exact hs.tokens_insert hl o
      | cons t rest =>
        have hne : textOf (t :: rest) ≠ [] := by simp [hrest.1.ne_nil]
        refine (hs.of_head? ?_).tokens_eq o
        rw [List.head?_append_of_ne_nil _ hne, List.head?_append_of_ne_nil _ hne]
        exact fun c hc => hc
    rw [textOf_cons, List.append_assoc, hfirst, ih hrest, List.length_append, tokensOf,
      ← Nat.add_assoc]
    cases Scanner.tokens rules
      ⟨behind, o + s.text.length + (textOf rest).length + layout.length⟩ <;> simp [Except.map]

theorem fit_of_head? (h : Fit behind segments) (hhead : ∀ c ∈ others.head?, c ∈ behind.head?) :
    Fit others segments := by
  induction segments with
  | nil => trivial
  | cons s rest ih =>
    refine ⟨h.1.of_head? ?_, ih h.2⟩
    rw [List.head?_append, List.head?_append]
    cases (textOf rest).head? with
    | none => exact hhead
    | some d => exact fun c hc => hc

theorem TooLarge.insert_layout {middle : List Char} (h : TooLarge digits (middle ++ behind))
    (hl : Layout layout) : TooLarge digits (middle ++ (layout ++ behind)) := by
  cases middle with
  | nil =>
    rw [List.nil_append] at h ⊢
    exact ⟨MaximalRun.of_layout h.run hl not_digit_of_layout, h.le_value⟩
  | cons c middle => exact ⟨⟨h.run.ne_nil, h.run.accepted, h.run.ended⟩, h.le_value⟩

theorem TooLarge.step_eq (h : TooLarge (c :: cs) behind) (o : Nat) :
    Scanner.step rules c (cs ++ behind) o =
      .failed (.integerOutOfRange (String.ofList (c :: cs)) o) (1 + cs.length) := by
  have hr : (⟨.run Char.isDigit, .emit .integer .number⟩ : Rule) ∈ rules := by simp [rules]
  have hmatches : (Form.run Char.isDigit).Matches (c :: cs) behind :=
    h.run.congr fun _ => isDigit_iff.symm
  have hfirst : firstMatch rules c (cs ++ behind) =
      some (⟨.run Char.isDigit, .emit .integer .number⟩, .closed cs.length) := by
    rw [firstMatch_eq rules_apart hr (isDigit_iff.mpr (h.run.accepted c (by simp))),
      Form.extent_of_matches hmatches]
    rfl
  have hpayload : Conversion.number.payload? (c :: cs) = none := by
    rw [payload?_number, if_neg (Nat.not_lt.mpr h.le_value)]
  rw [Scanner.step, hfirst]
  simp [hpayload]

theorem TooLarge.tokens_eq (h : TooLarge digits behind) (o : Nat) :
    Scanner.tokens rules ⟨digits ++ behind, o⟩ =
      .error (.integerOutOfRange (String.ofList digits) o) := by
  obtain ⟨c, cs, rfl⟩ := List.exists_cons_of_ne_nil h.run.ne_nil
  rw [List.cons_append, Scanner.tokens_cons, h.step_eq]

theorem rule_of_payload?_eq_none {rule : Rule} {kind : Kind} {conversion : Conversion}
    {lexeme : List Char} (hr : rule ∈ rules) (haction : rule.action = .emit kind conversion)
    (h : conversion.payload? lexeme = none) :
    rule.form = .run Char.isDigit ∧ conversion = .number := by
  cases conversion with
  | number => cases listed_of_mem hr <;> simp_all [symbol]
  | verbatim | behindSigil | unquoted => simp [Conversion.payload?] at h

theorem tooLarge_of_rule {rule : Rule} {kind : Kind} {conversion : Conversion} (hr : rule ∈ rules)
    (hm : rule.form.Matches digits behind) (haction : rule.action = .emit kind conversion)
    (h : conversion.payload? digits = none) : TooLarge digits behind := by
  obtain ⟨hform, rfl⟩ := rule_of_payload?_eq_none hr haction h
  rw [hform] at hm
  exact ⟨hm.congr fun _ => isDigit_iff, by simpa [payload?_number] using h⟩

/-- A step reads a segment, or the digits of a number out of range, or nothing. -/
theorem reach_cases (c : Char) (cs : List Char) (o : Nat) :
    (∃ (s : Segment) (behind : List Char), c :: cs = s.text ++ behind ∧ s.Fits behind ∧
        s.text.length = (Scanner.step rules c cs o).reach) ∨
      (∃ digits behind, c :: cs = digits ++ behind ∧ TooLarge digits behind ∧
        digits.length = (Scanner.step rules c cs o).reach) ∨
      (Scanner.step rules c cs o).reach = 0 := by
  have hstep := Scanner.steps_step rules c cs o
  generalize Scanner.step rules c cs o = outcome at hstep ⊢
  cases hstep with
  | stays ho he => exact .inr (.inr rfl)
  | @layout rule run behind hr hcs hm haction =>
    have hresult : rule.result? (c :: run) = some none := by simp [Rule.result?, haction]
    refine .inl ⟨⟨c :: run, none⟩, behind, ?_, fits_of_rule hr hm hresult, Nat.add_comm _ _⟩
    rw [hcs, List.cons_append]
  | @token rule run behind kind conversion payload hr hcs hm haction hpayload =>
    have hresult : rule.result? (c :: run) = some (some (kind, payload)) := by
      simp [Rule.result?, haction, hpayload]
    refine .inl ⟨⟨c :: run, some (kind, payload)⟩, behind, ?_, fits_of_rule hr hm hresult,
      Nat.add_comm _ _⟩
    rw [hcs, List.cons_append]
  | @outOfRange rule run behind kind conversion hr hcs hm haction hpayload =>
    have hdigits := tooLarge_of_rule hr hm haction hpayload
    refine .inr (.inl ⟨c :: run, behind, ?_, hdigits, Nat.add_comm _ _⟩)
    rw [hcs, List.cons_append]

/-- What a scanner has behind it is segments, and then nothing else up to a number out of range. -/
theorem exists_fit_of_reaches {s t : Scanner} (h : s.Reaches t) :
    ∃ segments passed, s.rest = textOf segments ++ (passed ++ t.rest) ∧
      Fit (passed ++ t.rest) segments ∧
      (passed = [] ∨ ∃ digits middle, passed = digits ++ middle ∧
        TooLarge digits (middle ++ t.rest)) ∧
      t.offset = s.offset + (textOf segments).length + passed.length := by
  induction h with
  | refl => exact ⟨[], [], rfl, trivial, .inl rfl, rfl⟩
  | @step c cs o n t h _ ih =>
    obtain ⟨segments, passed, hrest, hfit, hpassed, hoffset⟩ := ih
    subst h
    rcases reach_cases c cs o with ⟨s, behind, htext, hs, hreach⟩ |
      ⟨digits, behind, htext, hdigits, hreach⟩ | hreach
    · have hbehind : behind = textOf segments ++ (passed ++ t.rest) := by
        simpa [Scanner.behind, htext, ← hreach] using hrest
      refine ⟨s :: segments, passed, ?_, ⟨hbehind ▸ hs, hfit⟩, hpassed, ?_⟩
      · rw [htext, textOf_cons, List.append_assoc, hbehind]
      · rw [hoffset, textOf_cons, List.length_append, hreach]
        simp only [Scanner.behind]
        omega
    · have hbehind : behind = textOf segments ++ passed ++ t.rest := by
        simpa [Scanner.behind, htext, ← hreach] using hrest
      refine ⟨[], digits ++ (textOf segments ++ passed), ?_, trivial,
        .inr ⟨digits, textOf segments ++ passed, rfl, hbehind ▸ hdigits⟩, ?_⟩
      · simp [htext, hbehind]
      · simp only [hoffset, Scanner.behind, ← hreach, List.length_append, textOf_nil]
        simp only [List.length_nil]
        omega
    · rw [hreach] at hrest hoffset
      exact ⟨segments, passed, hrest, hfit, hpassed, hoffset⟩

theorem offset_lt_of_mem_tokensOf {t : Token} (h : Fit behind segments)
    (ht : t ∈ tokensOf o segments) : t.offset < o + (textOf segments).length := by
  obtain ⟨front, s, rest, rfl, -, hoffset⟩ := exists_segment_of_mem_tokensOf ht
  have hpos := List.length_pos_iff.mpr (fit_append.mp h).2.1.ne_nil
  rw [textOf_append, textOf_cons, List.length_append, List.length_append, hoffset]
  omega

end Segment

section Insertion

variable {text : String} {s : Scanner} {layout : List Char}

open Segment

/-- Layout behind segments moves the tokens behind it. -/
theorem Token.ofText_insertAt_of_fit {segments : List Segment} {behind : List Char}
    (htext : text.toList = textOf segments ++ behind) (hfit : Fit behind segments)
    (hl : Layout layout) :
    ofText (insertAt text (textOf segments).length layout) =
      relocateAll (pushed (textOf segments).length layout.length) (ofText text) := by
  have hread : ∀ n, Scanner.tokens rules ⟨behind, n⟩ =
      relocateAll (· + n) (Scanner.tokens rules ⟨behind, 0⟩) := by
    intro n
    rw [← Scanner.tokens_shift, Scanner.shift, Nat.zero_add]
  -- the tokens before the place stay, and those behind it are read as from any other place
  have hkept : ∀ t ∈ tokensOf 0 segments,
      t.relocate (pushed (textOf segments).length layout.length) = id t := by
    intro t ht
    have hlt := offset_lt_of_mem_tokensOf hfit ht
    rw [relocate, pushed, if_pos (by omega)]
    rfl
  have hbefore := (List.map_congr_left hkept).trans (List.map_id _)
  have hbehind : ∀ o, pushed (textOf segments).length layout.length (o + (textOf segments).length) =
      o + ((textOf segments).length + layout.length) := by
    intro o
    rw [pushed, if_neg (by omega), Nat.add_assoc]
  rw [ofText, ofText, Scanner.ofText, Scanner.ofText, insertAt, String.toList_ofList, htext,
    List.take_left, List.drop_left, tokens_insert hfit hl, tokens_append hfit, Nat.zero_add,
    hread, hread (textOf segments).length]
  cases Scanner.tokens rules ⟨behind, 0⟩ with
  | error e => cases e <;> simp [relocateAll, LexicalError.relocate, Except.map, hbehind]
  | ok tokens => simp [relocateAll, Except.map, hbefore, relocate, hbehind]

/-- Layout behind a number out of range does not change that this number is the error. -/
theorem Token.ofText_insertAt_of_tooLarge {segments : List Segment}
    {digits middle behind : List Char}
    (htext : text.toList = textOf segments ++ (digits ++ (middle ++ behind)))
    (hfit : Fit (digits ++ (middle ++ behind)) segments)
    (hdigits : TooLarge digits (middle ++ behind)) (hl : Layout layout) :
    ofText (insertAt text ((textOf segments).length + (digits ++ middle).length) layout) =
      relocateAll (pushed ((textOf segments).length + (digits ++ middle).length) layout.length)
        (ofText text) := by
  have hpos := List.length_pos_iff.mpr hdigits.run.ne_nil
  have hinserted := hdigits.insert_layout hl
  have hfits : Fit (digits ++ (middle ++ (layout ++ behind))) segments := by
    refine fit_of_head? hfit ?_
    rw [List.head?_append_of_ne_nil _ hdigits.run.ne_nil,
      List.head?_append_of_ne_nil _ hdigits.run.ne_nil]
    exact fun c hc => hc
  have hpassed : text.toList = textOf segments ++ (digits ++ middle) ++ behind := by simp [htext]
  have hlength : (textOf segments ++ (digits ++ middle)).length =
      (textOf segments).length + (digits ++ middle).length := List.length_append
  have hold : ofText text =
      .error (.integerOutOfRange (String.ofList digits) (textOf segments).length) := by
    rw [ofText, Scanner.ofText, htext, tokens_append hfit, hdigits.tokens_eq, Nat.zero_add]
    rfl
  have hnew : ofText (insertAt text ((textOf segments).length + (digits ++ middle).length) layout) =
      .error (.integerOutOfRange (String.ofList digits) (textOf segments).length) := by
    rw [ofText, Scanner.ofText, insertAt, String.toList_ofList, hpassed, ← hlength, List.take_left,
      List.drop_left, List.append_assoc, List.append_assoc, tokens_append hfits,
      hinserted.tokens_eq, Nat.zero_add]
    rfl
  rw [hnew, hold, relocateAll, LexicalError.relocate, pushed, if_pos]
  rw [List.length_append]
  omega

theorem Token.ofText_insertAt (hs : (Scanner.ofText text).Reaches s) (hl : Layout layout) :
    ofText (insertAt text s.offset layout) =
      relocateAll (pushed s.offset layout.length) (ofText text) := by
  obtain ⟨segments, passed, htext, hfit, hpassed, hoffset⟩ := exists_fit_of_reaches hs
  rw [Scanner.ofText, Nat.zero_add] at hoffset
  rw [Scanner.ofText] at htext
  rw [hoffset]
  rcases hpassed with rfl | ⟨digits, middle, rfl, hdigits⟩
  · exact Token.ofText_insertAt_of_fit htext hfit hl
  · rw [List.append_assoc] at htext hfit
    exact Token.ofText_insertAt_of_tooLarge htext hfit hdigits hl

/-- Blanks and comments put in where the scanner is between two matches of rules move the tokens and
the error behind them. The program is the same or fails with the same error at its new place, and
runs of it are the same. -/
theorem ofText_insertAt_and_run (hs : (Scanner.ofText text).Reaches s) (hl : Layout layout) :
    Token.ofText (insertAt text s.offset layout) =
      Token.relocateAll (pushed s.offset layout.length) (Token.ofText text) ∧
    Program.ofText (insertAt text s.offset layout) =
      (Program.ofText text).mapError (Failure.relocate (pushed s.offset layout.length)) ∧
    ∀ m, (Program.ofText (insertAt text s.offset layout)).map (Program.run m) =
      ((Program.ofText text).map (Program.run m)).mapError
        (Failure.relocate (pushed s.offset layout.length)) := by
  have htokens := Token.ofText_insertAt hs hl
  have hprogram : Program.ofText (insertAt text s.offset layout) =
      (Program.ofText text).mapError (Failure.relocate (pushed s.offset layout.length)) := by
    rw [Program.ofText, Program.ofText, htokens]
    cases Token.ofText text with
    | error e => rfl
    | ok tokens =>
      simp only [Token.relocateAll]
      rw [Program.ofTokens_relocate]
      cases Program.ofTokens tokens <;> rfl
  refine ⟨htokens, hprogram, ?_⟩
  intro m
  rw [hprogram]
  cases Program.ofText text <;> rfl

end Insertion

/-- `PRINT 1+2%c` from behind the `1` on. -/
def sumRest : Scanner := ⟨['+', '2', '%', 'c'], 7⟩

theorem sumRest_insertAt :
    (Scanner.ofText "PRINT 1+2%c").Reaches sumRest ∧
    Token.ofText "PRINT 1 %d\n\t+2%c" =
      .ok [⟨.print, .text "PRINT", 0⟩, ⟨.integer, .integer 1, 6⟩, ⟨.plus, .text "+", 12⟩,
        ⟨.integer, .integer 2, 13⟩] ∧
    Program.ofText "PRINT 1 %d\n\t+2%c" =
      .ok [.print [.binary (.integer 1) .add (.integer 2)]] ∧
    (Program.ofText "PRINT 1 %d\n\t+2%c").map (Program.run (.fresh .unlimited)) =
      .ok ⟨none, lineBytes "3", .fresh .unlimited⟩ := by
  have hs : (Scanner.ofText "PRINT 1+2%c").Reaches sumRest := by
    have hnumber : Scanner.Reaches ⟨'1' :: ['+', '2', '%', 'c'], 6⟩ sumRest :=
      .step (n := 1) (by decide +kernel) .refl
    have hblank : Scanner.Reaches ⟨' ' :: ['1', '+', '2', '%', 'c'], 5⟩ sumRest :=
      .step (n := 1) (by decide +kernel) hnumber
    have hprint : Scanner.Reaches
        ⟨'P' :: ['R', 'I', 'N', 'T', ' ', '1', '+', '2', '%', 'c'], 0⟩ sumRest :=
      .step (n := 5) (by decide +kernel) hblank
    rwa [Scanner.ofText, String.toList_ofList]
  have hl : Layout [' ', '%', 'd', '\n', '\t'] :=
    .blank (by simp [Blank])
      (@Layout.comment ['d'] ['\t'] (by simp) (.blank (by simp [Blank]) .nil))
  obtain ⟨htokens, hprogram, hrun⟩ := ofText_insertAt_and_run hs hl
  have htext : insertAt "PRINT 1+2%c" sumRest.offset [' ', '%', 'd', '\n', '\t'] =
      "PRINT 1 %d\n\t+2%c" := by decide
  rw [htext] at htokens hprogram
  refine ⟨hs, htokens.trans (by decide +kernel), hprogram.trans (by decide +kernel), ?_⟩
  rw [← htext, hrun]
  decide +kernel

end Tally
