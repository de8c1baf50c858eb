import Tally.Proofs.Diagnosis

/-! Line ends of two characters. A text with a carriage return in front of every newline has the
same tokens as without, or the same error, at the places to which the characters move. Only in text
literals the carriage returns show. -/

namespace Tally

open Lexeme

/-- The text with a carriage return in front of every newline. -/
def withReturns (cs : List Char) : List Char :=
  cs.flatMap fun c => if c = '\n' then ['\r', '\n'] else [c]

/-- Where the character that had so many before it is in the text with carriage returns. -/
def placeWithReturns (cs : List Char) (o : Nat) : Nat := o + (cs.take (o + 1)).count '\n'

/-- The payload for the lexeme with carriage returns. Only text literals may go over line ends. -/
def Payload.withReturns (kind : Kind) : Payload → Payload
  | text value =>
    .text (if kind = .text then String.ofList (Tally.withReturns value.toList) else value)
  | integer n => .integer n

def Token.withReturns (cs : List Char) (t : Token) : Token :=
  ⟨t.kind, t.payload.withReturns t.kind, placeWithReturns cs t.offset⟩

/-- The tokens, or the error, of the text with carriage returns. -/
def Token.allWithReturns (cs : List Char) :
    Except LexicalError (List Token) → Except LexicalError (List Token)
  | .error e => .error (e.relocate (placeWithReturns cs))
  | .ok tokens => .ok (tokens.map (withReturns cs))

section Places

variable {cs : List Char} {c : Char}

@[simp] theorem withReturns_nil : withReturns [] = [] := rfl

@[simp] theorem withReturns_newline : withReturns ('\n' :: cs) = '\r' :: '\n' :: withReturns cs :=
  rfl

theorem withReturns_cons (h : c ≠ '\n') : withReturns (c :: cs) = c :: withReturns cs := by
  simp [withReturns, h]

@[simp] theorem withReturns_append (cs ds : List Char) :
    withReturns (cs ++ ds) = withReturns cs ++ withReturns ds := List.flatMap_append

theorem withReturns_of_not_mem (h : '\n' ∉ cs) : withReturns cs = cs := by
  induction cs with
  | nil => rfl
  | cons c cs ih =>
    obtain ⟨hc, hcs⟩ := not_or.mp (mt List.mem_cons.mpr h)
    rw [withReturns_cons (Ne.symm hc), ih hcs]

theorem length_withReturns (cs : List Char) :
    (withReturns cs).length = cs.length + cs.count '\n' := by
  induction cs with
  | nil => rfl
  | cons c cs ih =>
    by_cases hc : c = '\n'
    · subst hc
      simp [ih]
      omega
    · simp [withReturns_cons hc, ih, hc]
      omega

/-- Behind the front come a carriage return, if the character is a newline, and the character. -/
theorem placeWithReturns_append (front : List Char) (c : Char) (behind : List Char) :
    placeWithReturns (front ++ c :: behind) front.length =
      (withReturns front).length + [c].count '\n' := by
  rw [placeWithReturns, length_withReturns, List.take_length_add_append]
  simp [List.count_append, Nat.add_assoc]

theorem withReturns_split (front : List Char) (c : Char) (behind : List Char) :
    withReturns (front ++ c :: behind) =
      withReturns front ++ List.replicate ([c].count '\n') '\r' ++ c :: withReturns behind := by
  by_cases hc : c = '\n'
  · subst hc
    simp
  · simp [withReturns_cons hc, hc]

end Places

section Lexemes

variable {accepts : Char → Prop} {run behind cs : List Char} {body : List LiteralChar}

theorem head?_withReturns : ∀ c ∈ (withReturns cs).head?, c = '\r' ∨ c ∈ cs.head? := by
  cases cs with
  | nil => simp
  | cons d cs =>
    by_cases hd : d = '\n'
    · subst hd
      simp
    · simp [withReturns_cons hd]

theorem Lexeme.MaximalRun.withReturns (h : MaximalRun accepts run behind) (hr : ¬ accepts '\r') :
    MaximalRun accepts run (withReturns behind) := by
  refine ⟨h.ne_nil, h.accepted, ?_⟩
  intro c hc
  rcases head?_withReturns c hc with rfl | hc
  · exact hr
  · exact h.ended c hc

/-- A backslash in front of a newline takes the carriage return instead. -/
theorem exists_literal (h : ∀ u ∈ body, u.Valid '"') : ∃ others : List LiteralChar,
    (∀ u ∈ others, u.Valid '"') ∧
      LiteralChar.written others = withReturns (LiteralChar.written body) ∧
      others.map LiteralChar.char = withReturns (body.map LiteralChar.char) := by
  induction body with
  | nil => exact ⟨[], by simp, rfl, rfl⟩
  | cons u body ih =>
    obtain ⟨hu, hbody⟩ := List.forall_mem_cons.mp h
    obtain ⟨others, hvalid, hwritten, hchars⟩ := ih hbody
    cases u with
    | plain c =>
      by_cases hc : c = '\n'
      · subst hc
        refine ⟨.plain '\r' :: .plain '\n' :: others, ?_, ?_, ?_⟩
        · simpa [LiteralChar.Valid] using hvalid
        · simp [LiteralChar.written, hwritten]
        · simp [LiteralChar.char, hchars]
      · refine ⟨.plain c :: others, List.forall_mem_cons.mpr ⟨hu, hvalid⟩, ?_, ?_⟩
        · simp [LiteralChar.written, withReturns_cons hc, hwritten]
        · simp [LiteralChar.char, withReturns_cons hc, hchars]
    | escaped c =>
      by_cases hc : c = '\n'
      · subst hc
        refine ⟨.escaped '\r' :: .plain '\n' :: others, ?_, ?_, ?_⟩
        · simpa [LiteralChar.Valid] using hvalid
        · simp [LiteralChar.written, withReturns_cons, hwritten]
        · simp [LiteralChar.char, hchars]
      · refine ⟨.escaped c :: others, List.forall_mem_cons.mpr ⟨hu, hvalid⟩, ?_, ?_⟩
        · simp [LiteralChar.written, withReturns_cons, hc, hwritten]
        · simp [LiteralChar.char, withReturns_cons hc, hchars]

end Lexemes

namespace Segment

variable {s : Segment} {behind : List Char} {c : Char} {kind : Kind}

/-- What stands for the segment in the text with carriage returns. -/
def withReturns (s : Segment) : Segment :=
  ⟨Tally.withReturns s.text, s.meaning.map fun m => (m.1, m.2.withReturns m.1)⟩

theorem ne_text_of_mem_symbols (h : (c, kind) ∈ symbols) : kind ≠ .text := by
  rintro rfl
  simp [symbols] at h

theorem Fits.withReturns_of_not_mem (h : s.Fits (Tally.withReturns behind)) (ht : '\n' ∉ s.text)
    (hs : ∀ m ∈ s.meaning, m.2.withReturns m.1 = m.2) :
    s.withReturns.Fits (Tally.withReturns behind) ∧ s.text.head? ≠ some '\n' := by
  have hmeaning : s.meaning.map (fun m => (m.1, m.2.withReturns m.1)) = s.meaning := by
    cases hm : s.meaning with
    | none => rfl
    | some m => simp [hs m hm]
  refine ⟨?_, fun hhead => ht (List.mem_of_head? hhead)⟩
  rwa [withReturns, Tally.withReturns_of_not_mem ht, hmeaning]

theorem not_mem_of_maximalRun {accepts : Char → Prop} {run : List Char}
    (h : MaximalRun accepts run behind) (hn : ¬ accepts '\n') : '\n' ∉ run :=
  fun hmem => hn (h.accepted _ hmem)

/-- Segments stay segments, but for blanks, which go on with the carriage return of a line end, and
for line ends, which have that in front of them. -/
theorem Fits.withReturns (h : s.Fits behind) :
    (s.withReturns.Fits (Tally.withReturns behind) ∧ s.text.head? ≠ some '\n') ∨
      (∀ c ∈ s.text, Blank c) ∧ s.meaning = none ∨
      s = ⟨['\n'], some (.lineEnd, .text "\n")⟩ := by
  have hname : ¬ NameChar '\n' ∧ ¬ NameChar '\r' := by simp [NameChar]
  have hdigit : ¬ Digit '\n' ∧ ¬ Digit '\r' := by simp [Digit]
  cases h with
  | blanks h => exact .inr (.inl ⟨h.accepted, rfl⟩)
  | @comment body _ h =>
    have hline : '\n' ∉ body ++ ['\r'] := by simpa using h
    refine .inl ⟨?_, by simp⟩
    simpa [Segment.withReturns, withReturns_cons, Tally.withReturns_of_not_mem h] using
      @Fits.comment _ (Tally.withReturns behind) hline
  | lastComment h =>
    exact .inl ((Fits.lastComment h).withReturns_of_not_mem (by simpa using h) (by simp))
  | @symbol c kind _ h =>
    by_cases hc : c = '\n'
    · subst hc
      obtain rfl : kind = .lineEnd := by simpa [symbols] using h
      exact .inr (.inr rfl)
    · refine .inl ((Fits.symbol h).withReturns_of_not_mem (by simpa using Ne.symm hc) ?_)
      simp [Payload.withReturns, ne_text_of_mem_symbols h]
  | directive h =>
    have hline := not_mem_of_maximalRun h hname.1
    exact .inl ((Fits.directive (h.withReturns hname.2)).withReturns_of_not_mem
      (by simpa using hline) (by simp [Payload.withReturns]))
  | var h =>
    have hline := not_mem_of_maximalRun h hname.1
    exact .inl ((Fits.var (h.withReturns hname.2)).withReturns_of_not_mem
      (by simpa using hline) (by simp [Payload.withReturns]))
  | @literal body _ h =>
    obtain ⟨others, hvalid, hwritten, hchars⟩ := exists_literal h
    have hfits := @Fits.literal others (Tally.withReturns behind) hvalid
    rw [hwritten, hchars] at hfits
    refine .inl ⟨?_, by simp⟩
    simpa [Segment.withReturns, withReturns_cons, Payload.withReturns] using hfits
  | number h hn =>
    have hline := not_mem_of_maximalRun h hdigit.1
    exact .inl ((Fits.number (h.withReturns hdigit.2) hn).withReturns_of_not_mem hline
      (by simp [Payload.withReturns]))
  | print =>
    exact .inl (Fits.print.withReturns_of_not_mem (by simp) (by simp [Payload.withReturns]))

/-- The text with carriage returns is passed as the segment is. -/
theorem Fits.tokens_withReturns (h : s.Fits behind) (o : Nat) :
    Scanner.tokens rules ⟨Tally.withReturns (s.text ++ behind), o⟩ =
      (Scanner.tokens rules ⟨Tally.withReturns behind, o + (Tally.withReturns s.text).length⟩).map
        ((s.withReturns.meaning.map fun m =>
          (⟨m.1, m.2, o + (s.text.take 1).count '\n'⟩ : Token)).toList ++ ·) := by
  rw [withReturns_append]
  rcases h.withReturns with ⟨hfits, hhead⟩ | ⟨hblank, hmeaning⟩ | rfl
  · have hcount : (s.text.take 1).count '\n' = 0 := by
      obtain ⟨c, cs, htext⟩ := List.exists_cons_of_ne_nil h.ne_nil
      simpa [htext, List.count_eq_zero, eq_comm] using hhead
    rw [hcount]
    exact hfits.tokens_eq o
  · have hline : '\n' ∉ s.text := fun hmem => absurd (hblank _ hmem) (by simp [Blank])
    have hmeaning : s.withReturns.meaning = none := by simp [Segment.withReturns, hmeaning]
    rw [Tally.withReturns_of_not_mem hline, tokens_layout (layout_of_blanks hblank), hmeaning]
    cases Scanner.tokens rules ⟨Tally.withReturns behind, o + s.text.length⟩ <;> rfl
  · have hline : Fits ⟨['\n'], some (.lineEnd, .text "\n")⟩ (Tally.withReturns behind) :=
      .symbol (by simp [symbols])
    exact (tokens_blank (by simp [Blank]) _ o).trans (hline.tokens_eq (o + 1))

end Segment

section Obstacles

open Segment

variable {text cs ds : List Char} {error : Nat → LexicalError}

theorem throughClosing_withReturns (h : throughClosing '"' cs = none) :
    throughClosing '"' (withReturns cs) = none := by
  fun_induction throughClosing '"' cs with
  | case1 => rfl
  | case2 => rfl
  | case3 d rest ih =>
    have hrest := ih (Option.map_eq_none_iff.mp h)
    by_cases hd : d = '\n'
    · subst hd
      simp [withReturns_cons, throughClosing_escaped, throughClosing_plain, hrest]
    · simp [withReturns_cons, hd, throughClosing_escaped, hrest]
  | case4 => simp at h
  | case5 c rest hback hclose ih =>
    have hrest := ih (Option.map_eq_none_iff.mp h)
    by_cases hc : c = '\n'
    · subst hc
      simp [throughClosing_plain, hrest]
    · simp [withReturns_cons hc, throughClosing_plain hback hclose, hrest]

theorem prefix_of_withReturns (h : ds <+: withReturns cs) (hd : '\r' ∉ ds) : ds <+: cs := by
  induction ds generalizing cs with
  | nil => exact List.nil_prefix
  | cons d ds ih =>
    obtain ⟨hne, hds⟩ := not_or.mp (mt List.mem_cons.mpr hd)
    cases cs with
    | nil => simp at h
    | cons c cs =>
      by_cases hc : c = '\n'
      · subst hc
        exact absurd (List.cons_prefix_cons.mp h).1.symm hne
      · rw [withReturns_cons hc, List.cons_prefix_cons] at h
        exact List.cons_prefix_cons.mpr ⟨h.1, ih h.2 hds⟩

theorem Obstacle.withReturns (h : Obstacle text error) :
    text.head? ≠ some '\n' ∧ Obstacle (withReturns text) error := by
  cases h with
  | openText h =>
    rw [withReturns_cons (by decide)]
    exact ⟨by simp, .openText (throughClosing_withReturns h)⟩
  | @number digits behind h =>
    have hline := not_mem_of_maximalRun h.run (by simp [Digit])
    refine ⟨?_, ?_⟩
    · rw [List.head?_append_of_ne_nil _ h.run.ne_nil]
      exact fun hhead => hline (List.mem_of_head? hhead)
    · rw [withReturns_append, withReturns_of_not_mem hline]
      exact .number ⟨h.run.withReturns (by simp [Digit]), h.le_value⟩
  | @sigil mark cs hmark h =>
    have hline : mark ≠ '\n' := by rcases hmark with rfl | rfl <;> decide
    rw [withReturns_cons hline]
    refine ⟨by simpa, .sigil hmark fun d hd => ?_⟩
    rcases head?_withReturns d hd with rfl | hd
    · simp [NameChar]
    · exact h d hd
  | word h =>
    rw [withReturns_cons (by decide)]
    exact ⟨by simp, .word fun hprefix => h (prefix_of_withReturns hprefix (by simp))⟩
  | @unknown c cs h =>
    have hline : c ≠ '\n' := by
      rintro rfl
      exact h (symbol ['\n', ';'] .lineEnd) (by simp [rules]) (by simp [symbol, Form.Begins])
    rw [withReturns_cons hline]
    exact ⟨by simpa, .unknown h⟩

end Obstacles

section Texts

open Segment

variable {behind : List Char} {segments : List Segment}

theorem Obstacle.tokens_withReturns {error : Nat → LexicalError} (h : Obstacle behind error)
    (front : List Char) :
    Scanner.tokens rules ⟨Tally.withReturns behind, (Tally.withReturns front).length⟩ =
      Token.allWithReturns (front ++ behind) (Scanner.tokens rules ⟨behind, front.length⟩) := by
  obtain ⟨hhead, hwith⟩ := h.withReturns
  obtain ⟨c, cs, rfl, -⟩ := h.step_eq
  have hplace := placeWithReturns_append front c cs
  rw [List.count_eq_zero_of_not_mem (by simpa using Ne.symm hhead), Nat.add_zero] at hplace
  rw [hwith.tokens_eq, h.tokens_eq, Token.allWithReturns, h.relocate_eq, hplace]

theorem tokens_withReturns (hfit : Fit behind segments) (hstuck : Stuck behind)
    (front : List Char) :
    Scanner.tokens rules ⟨withReturns (textOf segments ++ behind), (withReturns front).length⟩ =
      Token.allWithReturns (front ++ (textOf segments ++ behind))
        (Scanner.tokens rules ⟨textOf segments ++ behind, front.length⟩) := by
  -- a segment that is passed goes over to the text in front, so that is any text here
  induction segments generalizing front with
  | nil =>
    cases behind with
    | nil =>
      rw [textOf_nil, List.nil_append, withReturns_nil, Scanner.tokens_nil, Scanner.tokens_nil]
      rfl
    | cons c cs =>
      obtain ⟨e, n, hstep⟩ := step_of_stuck hstuck 0
      obtain ⟨error, hobstacle, -⟩ := exists_obstacle hstep
      exact hobstacle.tokens_withReturns front
  | cons s rest ih =>
    obtain ⟨hs, hrest⟩ := hfit
    have hothers := ih hrest (front ++ s.text)
    rw [withReturns_append front, List.length_append, List.length_append, List.append_assoc]
      at hothers
    rw [textOf_cons, List.append_assoc, hs.tokens_withReturns, hs.tokens_eq, hothers]
    obtain ⟨c, cs, htext⟩ := List.exists_cons_of_ne_nil hs.ne_nil
    have hfirst : s.text.take 1 = [c] := by simp [htext]
    have hplace := placeWithReturns_append front c (cs ++ (textOf rest ++ behind))
    rw [← List.cons_append, ← htext, ← hfirst] at hplace
    cases Scanner.tokens rules ⟨textOf rest ++ behind, front.length + s.text.length⟩ with
    | error e => rfl
    | ok tokens =>
      simp only [Token.allWithReturns, Except.map, List.map_append, Segment.withReturns]
      cases s.meaning <;> simp [Token.withReturns, hplace]

end Texts

/-- With a carriage return in front of every newline a text gives the same tokens, but for the
newlines in text literals, or the same error. The offsets move with the characters that they point
at. -/
theorem ofText_withReturns (text : String) :
    Token.ofText (String.ofList (withReturns text.toList)) =
      Token.allWithReturns text.toList (Token.ofText text) ∧
    (∀ front c behind, text.toList = front ++ c :: behind → ∃ returns,
      withReturns text.toList = withReturns front ++ returns ++ c :: withReturns behind ∧
        placeWithReturns text.toList front.length = (withReturns front ++ returns).length) ∧
    (∀ e, Token.ofText text = .error e → e.offset < text.length) ∧
    ∀ tokens, Token.ofText text = .ok tokens → ∀ t ∈ tokens, t.offset < text.length := by
  refine ⟨?_, ?_, ?_, ?_⟩
  · obtain ⟨segments, behind, htext, hfit, hstuck⟩ := Segment.exists_fit text.toList
    rw [Token.ofText, Token.ofText, Scanner.ofText, Scanner.ofText, String.toList_ofList, htext]
    exact tokens_withReturns hfit hstuck []
  · intro front c behind htext
    refine ⟨List.replicate ([c].count '\n') '\r', ?_, ?_⟩
    · rw [htext, withReturns_split]
    · rw [htext, placeWithReturns_append, List.length_append, List.length_replicate]
  · intro e h
    have hdiagnosis : Diagnosis text .unlimited (.lexical e) "Lexical Error" (some e.offset) :=
      diagnosis_of_lexicalError h
    exact hdiagnosis.lt_length
  · intro tokens h t ht
    obtain ⟨c, hc, -⟩ := exists_begins h ht
    exact String.length_toList ▸ (List.getElem?_eq_some_iff.mp hc).1

/-- A backslash in front of a newline, a newline that ends a comment, and one on its own. -/
def crossedText : String := "$a=\"x\\\ny\"%c\n\n"

def crossedTokens : List Token :=
  [⟨.var, .text "a", 0⟩, ⟨.equal, .text "=", 2⟩, ⟨.text, .text "x\ny", 3⟩,
   ⟨.lineEnd, .text "\n", 12⟩]

theorem crossedText_withReturns :
    Token.ofText "$a=\"x\\\r\ny\"%c\r\n\r\n" =
      .ok [⟨.var, .text "a", 0⟩, ⟨.equal, .text "=", 2⟩, ⟨.text, .text "x\r\ny", 3⟩,
        ⟨.lineEnd, .text "\n", 15⟩] ∧
    (Token.ofText crossedText = .ok crossedTokens ∧
      ∀ t ∈ crossedTokens, t.offset < crossedText.length) ∧
    (crossedText.toList = ['$', 'a', '=', '"', 'x', '\\'] ++ '\n' :: "y\"%c\n\n".toList ∧
      ∃ returns, withReturns crossedText.toList =
          withReturns ['$', 'a', '=', '"', 'x', '\\'] ++ returns ++
            '\n' :: withReturns "y\"%c\n\n".toList ∧
        placeWithReturns crossedText.toList 6 =
          (withReturns ['$', 'a', '=', '"', 'x', '\\'] ++ returns).length) ∧
    Token.ofText "\n\"\\\n" = .error (.unterminatedString '"' 1) ∧ 1 < "\n\"\\\n".length ∧
    Token.ofText "\r\n\"\\\r\n" = .error (.unterminatedString '"' 2) := by
  obtain ⟨htokens, hplace, -, hinside⟩ := ofText_withReturns crossedText
  obtain ⟨herror, -, hoffset, -⟩ := ofText_withReturns "\n\"\\\n"
  have hok : Token.ofText crossedText = .ok crossedTokens := by decide +kernel
  have hopen : Token.ofText "\n\"\\\n" = .error (.unterminatedString '"' 1) := by decide +kernel
  have hsplit : crossedText.toList =
      ['$', 'a', '=', '"', 'x', '\\'] ++ '\n' :: "y\"%c\n\n".toList := by decide
  rw [hok] at htokens
  rw [hopen] at herror
  exact ⟨htokens.trans (by decide +kernel), ⟨hok, hinside _ hok⟩, ⟨hsplit, hplace _ _ _ hsplit⟩,
    hopen, hoffset _ hopen, herror.trans (by decide +kernel)⟩

end Tally
