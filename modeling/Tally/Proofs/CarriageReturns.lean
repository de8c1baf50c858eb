import Tally.Proofs.Obstacle

/-! Where carriage returns stand. A carriage return is a blank whatever is behind it, and outside text
literals any other blank does as well. -/

namespace Tally

open Lexeme Segment

/-- The segment reaches over the place between two parts of a text. -/
inductive Segment.Covers (s : Segment) : List Char → List Char → Prop where
  | here {front rest middle behind} (htext : s.text = front ++ middle) (hne : middle ≠ [])
      (hrest : rest = middle ++ behind) (hs : s.Fits behind) : Covers s front rest
  | later {t : Segment} {front others rest} (hfront : front = t.text ++ others)
      (ht : t.Fits (others ++ rest)) (h : Covers s others rest) : Covers s front rest

def Segment.IsLiteral (s : Segment) : Prop := ∃ value, s.meaning = some (.text, .text value)

/-- A comment, or a run of blanks. -/
def Segment.IsLayout (s : Segment) : Prop :=
  s.meaning = none ∧ (s.text.head? = some '%' ∨ ∀ c ∈ s.text, Blank c)

section Lists

variable {front behind xs ys : List Char} {c : Char}

/-- A place is in the first part of a text or in the second one. -/
theorem split_of_append_eq (h : xs ++ ys = front ++ c :: behind) :
    (∃ rest, xs = front ++ c :: rest ∧ behind = rest ++ ys) ∨
      ∃ middle, front = xs ++ middle ∧ ys = middle ++ c :: behind := by
  rcases List.append_eq_append_iff.mp h with ⟨middle, rfl, hys⟩ | ⟨rest, rfl, hrest⟩
  · exact .inr ⟨middle, rfl, hys⟩
  · cases rest with
    | nil => exact .inr ⟨[], by simp, by simpa using hrest.symm⟩
    | cons d rest =>
      obtain ⟨rfl, rfl⟩ := List.cons.inj hrest
      exact .inl ⟨rest, rfl, rfl⟩

theorem Lexeme.MaximalRun.replace {accepts : Char → Prop} {run : List Char} {d : Char}
    (h : MaximalRun accepts run (front ++ c :: behind)) (hd : ¬ accepts d) :
    MaximalRun accepts run (front ++ d :: behind) := by
  refine ⟨h.ne_nil, h.accepted, ?_⟩
  cases front with
  | nil => simpa using hd
  | cons b front => simpa using h.ended

end Lists

namespace Segment

variable {s t : Segment} {segments : List Segment} {front behind rest : List Char} {c d : Char}

/-- What fits in front of a text also does with another blank in that text. -/
theorem Fits.replace_behind (h : s.Fits (front ++ c :: behind)) (hc : Blank c) (hd : Blank d) :
    s.Fits (front ++ d :: behind) := by
  have hname := not_nameChar_of_blank hd
  have hdigit : ¬ Digit d := fun hdigit => not_blank_of_digit hdigit hd
  generalize hbehind : front ++ c :: behind = others at h
  cases h with
  | blanks h =>
    subst hbehind
    cases front with
    | nil => exact absurd hc (h.ended c rfl)
    | cons b front => exact .blanks ⟨h.ne_nil, h.accepted, by simpa using h.ended⟩
  | comment h => exact .comment h
  | lastComment => simp at hbehind
  | symbol h => exact .symbol h
  | directive h => exact .directive (MaximalRun.replace (hbehind ▸ h) hname)
  | var h => exact .var (MaximalRun.replace (hbehind ▸ h) hname)
  | literal h => exact .literal h
  | number h hn => exact .number (MaximalRun.replace (hbehind ▸ h) hdigit) hn
  | print => exact .print

/-- Blanks are in layout and in text literals, and in no other segment. -/
theorem Fits.of_blank_mem (h : s.Fits behind) (hmem : c ∈ s.text) (hc : Blank c) :
    s.IsLiteral ∨ s.IsLayout := by
  cases h with
  | blanks h => exact .inr ⟨rfl, .inr h.accepted⟩
  | comment h => exact .inr ⟨rfl, .inl rfl⟩
  | lastComment h => exact .inr ⟨rfl, .inl rfl⟩
  | literal h => exact .inl ⟨_, rfl⟩
  | symbol h =>
    obtain rfl := List.mem_singleton.mp hmem
    rcases hc with rfl | rfl | rfl <;> simp [symbols] at h
  | directive h =>
    rcases List.mem_cons.mp hmem with rfl | hmem
    · exact absurd hc (by simp [Blank])
    · exact absurd (h.accepted c hmem) (not_nameChar_of_blank hc)
  | var h =>
    rcases List.mem_cons.mp hmem with rfl | hmem
    · exact absurd hc (by simp [Blank])
    · exact absurd (h.accepted c hmem) (not_nameChar_of_blank hc)
  | number h => exact absurd hc (not_blank_of_digit (h.accepted c hmem))
  | print => rcases hc with rfl | rfl | rfl <;> simp at hmem

theorem ne_newline_of_blank (h : Blank c) : c ≠ '\n' := by
  rintro rfl
  exact absurd h (by simp [Blank])

/-- Layout stays layout with another blank in it. -/
theorem Fits.replace (h : s.Fits behind) (hs : s.meaning = none) (htext : s.text = front ++ c :: rest)
    (hc : Blank c) (hd : Blank d) : Fits ⟨front ++ d :: rest, none⟩ behind := by
  have hcomment : ∀ {body}, '%' :: body = front ++ c :: rest →
      ∃ middle, front = '%' :: middle ∧ body = middle ++ c :: rest := by
    intro body hbody
    rcases List.cons_eq_append_iff.mp hbody with ⟨rfl, heq⟩ | ⟨middle, rfl, heq⟩
    · exact absurd hc (by simp [(List.cons.inj heq).1, Blank])
    · exact ⟨middle, rfl, heq⟩
  cases h with
  | @blanks run _ h =>
    obtain rfl : run = front ++ c :: rest := htext
    refine .blanks ⟨by simp, fun b hb => ?_, h.ended⟩
    rcases List.mem_append.mp hb with hb | hb
    · exact h.accepted b (by simp [hb])
    · rcases List.mem_cons.mp hb with rfl | hb
      · exact hd
      · exact h.accepted b (by simp [hb])
  | @comment body _ h =>
    obtain ⟨middle, rfl, hbody⟩ := hcomment htext
    rcases split_of_append_eq hbody with ⟨last, rfl, rfl⟩ | ⟨last, -, hlast⟩
    · have hline : '\n' ∉ middle ++ d :: last := by
        simp_all [(ne_newline_of_blank hd).symm]
      simpa using @Fits.comment _ behind hline
    · cases last with
      | nil => exact absurd (List.cons.inj hlast).1.symm (ne_newline_of_blank hc)
      | cons b last => simp at hlast
  | @lastComment body h =>
    obtain ⟨middle, rfl, rfl⟩ := hcomment htext
    refine .lastComment ?_
    simp_all [(ne_newline_of_blank hd).symm]
  | symbol | directive | var | literal | number | print => simp at hs

/-- Only one segment covers a place. -/
theorem Covers.unique (h : Covers s front rest) (ht : Covers t front rest) : t = s := by
  induction h with
  | @here front rest middle behind htext hne hrest hs =>
    have hwhole : s.text ++ behind = front ++ rest := by rw [htext, hrest, List.append_assoc]
    cases ht with
    | here htext' _ hrest' ht =>
      refine (ht.unique hs ?_).1
      rw [hwhole, htext', hrest', List.append_assoc]
    | later hfront hu _ =>
      have heq := (hu.unique hs (by rw [hwhole, hfront, List.append_assoc])).1
      rw [heq, htext] at hfront
      simp [hne] at hfront
  | @later u front others rest hfront hu _ ih =>
    cases ht with
    | @here _ _ middle behind htext hne hrest ht =>
      have hwhole : t.text ++ behind = u.text ++ (others ++ rest) := by
        rw [htext, hfront, hrest, List.append_assoc, List.append_assoc]
      have heq := (ht.unique hu hwhole).1
      rw [heq, hfront] at htext
      simp [hne] at htext
    | later hfront' hv h =>
      obtain ⟨rfl, hbehind⟩ := hv.unique hu (by
        rw [← List.append_assoc, ← List.append_assoc, ← hfront, ← hfront'])
      rw [List.append_cancel_right hbehind] at h
      exact ih h

theorem exists_covers (h : Fit behind segments) (htext : textOf segments = front ++ c :: rest) :
    ∃ s, Covers s front (c :: rest ++ behind) := by
  induction segments generalizing front with
  | nil => simp at htext
  | cons t others ih =>
    rw [textOf_cons] at htext
    rcases split_of_append_eq htext with ⟨more, hmore, rfl⟩ | ⟨middle, rfl, hmiddle⟩
    · exact ⟨t, .here hmore (by simp) (by simp) h.1⟩
    · obtain ⟨s, hs⟩ := ih h.2 hmiddle
      refine ⟨s, .later rfl ?_ hs⟩
      simpa [hmiddle] using h.1

theorem Covers.of_blank (h : Covers s front (c :: behind)) (hc : Blank c) :
    s.IsLiteral ∨ s.IsLayout := by
  generalize hrest : c :: behind = rest at h
  induction h with
  | @here front rest middle behind htext hne hmiddle hs =>
    obtain ⟨b, middle, rfl⟩ := List.exists_cons_of_ne_nil hne
    rw [← hrest] at hmiddle
    obtain ⟨rfl, -⟩ := List.cons.inj hmiddle
    exact hs.of_blank_mem (by simp [htext]) hc
  | later _ _ _ ih => exact ih hrest

/-- In layout a text is passed alike with any blank at a place. -/
theorem Covers.tokens_replace (h : Covers s front (c :: behind)) (hs : s.meaning = none)
    (hc : Blank c) (hd : Blank d) (o : Nat) :
    Scanner.tokens rules ⟨front ++ d :: behind, o⟩ =
      Scanner.tokens rules ⟨front ++ c :: behind, o⟩ := by
  generalize hrest : c :: behind = rest at h
  induction h generalizing o with
  | @here front rest middle others htext hne hmiddle hfits =>
    obtain ⟨b, middle, rfl⟩ := List.exists_cons_of_ne_nil hne
    rw [← hrest] at hmiddle
    obtain ⟨rfl, rfl⟩ := List.cons.inj hmiddle
    have hold := hfits.tokens_of_layout hs o
    have hnew := (hfits.replace hs htext hc hd).tokens_of_layout rfl o
    simp only [htext, List.append_assoc, List.cons_append, List.length_append, List.length_cons]
      at hold hnew
    subst hrest
    exact hnew.trans hold.symm
  | @later t front others rest hfront ht _ ih =>
    subst hfront hrest
    have hnew := (ht.replace_behind hc hd).tokens_eq o
    rw [List.append_assoc, List.append_assoc, hnew, ih _ rfl, ht.tokens_eq]

end Segment

section Obstacles

variable {front behind ds : List Char} {c d : Char} {error : Nat → LexicalError}

theorem throughClosing_replace (hc : Blank c) (hd : Blank d) : ∀ front : List Char,
    throughClosing '"' (front ++ d :: behind) = throughClosing '"' (front ++ c :: behind)
  | [] => by
    have hplain : ∀ b, Blank b → b ≠ '\\' ∧ b ≠ '"' := by
      rintro b (rfl | rfl | rfl) <;> decide
    obtain ⟨hcback, hcclose⟩ := hplain c hc
    obtain ⟨hdback, hdclose⟩ := hplain d hd
    rw [List.nil_append, List.nil_append, throughClosing_plain hcback hcclose,
      throughClosing_plain hdback hdclose]
  | a :: front => by
    by_cases hback : a = '\\'
    · subst hback
      cases front with
      | nil => simp [throughClosing_escaped]
      | cons b front => simp [throughClosing_escaped, throughClosing_replace hc hd front]
    · by_cases hclose : a = '"'
      · subst hclose
        simp [throughClosing_closing]
      · simp [throughClosing_plain hback hclose, throughClosing_replace hc hd front]

/-- A prefix without the blank ends before it. -/
theorem prefix_of_prefix_replace (h : ds <+: front ++ d :: behind) (hd : d ∉ ds) :
    ds <+: front := by
  have hfront : front ++ [d] <+: front ++ d :: behind := by simp
  rcases List.prefix_or_prefix_of_prefix h hfront with hds | hds
  · refine (List.prefix_concat_iff.mp hds).resolve_left ?_
    rintro rfl
    simp at hd
  · exact absurd (hds.subset (by simp)) hd

theorem Obstacle.exists_cons_of_blank (h : Obstacle (front ++ c :: behind) error) (hc : Blank c) :
    ∃ b rest, front = b :: rest := by
  refine List.exists_cons_of_ne_nil ?_
  rintro rfl
  exact h.not_blank hc

/-- What a scanner gets stuck on stays the same with another blank in it. -/
theorem Obstacle.replace (h : Obstacle (front ++ c :: behind) error) (hc : Blank c) (hd : Blank d) :
    Obstacle (front ++ d :: behind) error := by
  obtain ⟨b, front, rfl⟩ := h.exists_cons_of_blank hc
  generalize htext : b :: front ++ c :: behind = text at h
  cases h with
  | openText h =>
    obtain ⟨rfl, rfl⟩ := List.cons.inj htext
    exact .openText ((throughClosing_replace hc hd front).trans h)
  | @number digits rest h =>
    rcases split_of_append_eq htext.symm with ⟨more, hmore, -⟩ | ⟨middle, hmiddle, rfl⟩
    · exact absurd hc (not_blank_of_digit (h.run.accepted c (by simp [hmore])))
    · rw [hmiddle, List.append_assoc]
      have hdigit : ¬ Digit d := fun hdigit => not_blank_of_digit hdigit hd
      exact .number ⟨h.run.replace hdigit, h.le_value⟩
  | sigil hmark h =>
    obtain ⟨rfl, rfl⟩ := List.cons.inj htext
    refine .sigil hmark ?_
    cases front with
    | nil => simpa using not_nameChar_of_blank hd
    | cons a front => simpa using h
  | word h =>
    obtain ⟨rfl, rfl⟩ := List.cons.inj htext
    refine .word fun hprefix => h ?_
    have hblank : d ∉ ['R', 'I', 'N', 'T'] := by rcases hd with rfl | rfl | rfl <;> simp
    exact (prefix_of_prefix_replace hprefix hblank).trans (List.prefix_append _ _)
  | unknown h =>
    obtain ⟨rfl, rfl⟩ := List.cons.inj htext
    exact .unknown h

end Obstacles

section Texts

variable {c : Char}

theorem Token.ofText_ne_unexpectedBlank (hc : Blank c) (text : String) (o : Nat) :
    ofText text ≠ .error (.unexpectedCharacter c o) := by
  intro h
  obtain ⟨segments, b, cs, n, -, -, -, hstep⟩ := exists_fit_of_error h
  obtain ⟨error, hobstacle, -⟩ := exists_obstacle hstep
  rcases Scanner.error_of_failed hstep with heq | ⟨-, heq⟩ | ⟨_, _, _, _, heq⟩
  · obtain rfl := (LexicalError.unexpectedCharacter.inj heq).1
    exact hobstacle.not_blank hc
  · cases heq
  · cases heq

/-- A blank is in a segment, or behind the place of an error that any blank leaves as it is. -/
theorem exists_covers_or_error (hc : Blank c) (front behind : List Char) :
    (∃ s, Covers s front (c :: behind)) ∨
      ∃ e, e.offset < front.length ∧
        ∀ d, Blank d → Token.ofText (String.ofList (front ++ d :: behind)) = .error e := by
  obtain ⟨segments, rest, htext, hfit, hstuck⟩ := exists_fit (front ++ c :: behind)
  rcases split_of_append_eq htext.symm with ⟨more, hmore, rfl⟩ | ⟨middle, rfl, rfl⟩
  · exact .inl (exists_covers hfit hmore)
  · obtain ⟨error, hobstacle⟩ := exists_obstacle_of_stuck hstuck (by simp)
    obtain ⟨b, middle, rfl⟩ := hobstacle.exists_cons_of_blank hc
    refine .inr ⟨error (textOf segments).length, ?_, ?_⟩
    · rw [hobstacle.offset_eq]
      simp
    · intro d hd
      have hfits : Fit (b :: middle ++ d :: behind) segments := fit_of_head? hfit (by simp)
      rw [Token.ofText, Scanner.ofText, String.toList_ofList, List.append_assoc,
        tokens_append hfits, (hobstacle.replace hc hd).tokens_eq, Nat.zero_add]
      rfl

end Texts

/-- A carriage return is never an unexpected character, whatever stands behind it. Each one that the
scanner comes to is in one segment, which is a text literal or layout. In layout, which is a comment
or a run of blanks, it may be any other blank without a change of a token or of an error. The others
are behind the place of an error, and they may be other blanks too. -/
theorem carriageReturn_of_text (front behind : List Char) :
    (∀ o, Token.ofText (String.ofList (front ++ '\r' :: behind)) ≠
      .error (.unexpectedCharacter '\r' o)) ∧
    ((∃ s : Segment, s.Covers front ('\r' :: behind) ∧
        (∀ t : Segment, t.Covers front ('\r' :: behind) → t = s) ∧
        (s.IsLiteral ∨ s.IsLayout ∧ ∀ d, Blank d →
          Token.ofText (String.ofList (front ++ d :: behind)) =
            Token.ofText (String.ofList (front ++ '\r' :: behind)))) ∨
      ∃ e : LexicalError, e.offset < front.length ∧
        ∀ d, Blank d → Token.ofText (String.ofList (front ++ d :: behind)) = .error e) := by
  have hreturn : Blank '\r' := .inr (.inr rfl)
  refine ⟨Token.ofText_ne_unexpectedBlank hreturn _, ?_⟩
  rcases exists_covers_or_error hreturn front behind with ⟨s, hs⟩ | herror
  · left
    refine ⟨s, hs, fun t ht => hs.unique ht, ?_⟩
    rcases hs.of_blank hreturn with hliteral | hlayout
    · exact .inl hliteral
    · refine .inr ⟨hlayout, fun d hd => ?_⟩
      rw [Token.ofText, Token.ofText, Scanner.ofText, Scanner.ofText, String.toList_ofList,
        String.toList_ofList]
      exact hs.tokens_replace hlayout.1 hreturn hd 0
  · exact .inr herror

/-- Carriage returns behind a variable, in a text and in a comment, none of them in front of a
newline. -/
def returnsText : String := "$a\r=\"\r\"%\r"

theorem returnsText_blank :
    Segment.Covers ⟨['\r'], none⟩ ['$', 'a'] ['\r', '=', '"', '\r', '"', '%', '\r'] ∧
    Token.ofText returnsText =
      .ok [⟨.var, .text "a", 0⟩, ⟨.equal, .text "=", 3⟩, ⟨.text, .text "\r", 4⟩] ∧
    Token.ofText "$a\t=\"\r\"%\r" = Token.ofText returnsText := by
  have hread : Token.ofText returnsText =
      .ok [⟨.var, .text "a", 0⟩, ⟨.equal, .text "=", 3⟩, ⟨.text, .text "\r", 4⟩] := by
    decide +kernel
  have hname : Segment.Fits ⟨['$', 'a'], some (.var, .text "a")⟩
      ['\r', '=', '"', '\r', '"', '%', '\r'] :=
    .var ⟨by simp, by simp [NameChar], by simp [NameChar]⟩
  have hblank : Segment.Fits ⟨['\r'], none⟩ ['=', '"', '\r', '"', '%', '\r'] :=
    .blanks ⟨by simp, by simp [Blank], by simp [Blank]⟩
  have hcovers : Segment.Covers ⟨['\r'], none⟩ ['$', 'a']
      ['\r', '=', '"', '\r', '"', '%', '\r'] := by
    have hhere : Segment.Covers ⟨['\r'], none⟩ [] ['\r', '=', '"', '\r', '"', '%', '\r'] :=
      .here rfl (by simp) rfl hblank
    exact .later rfl hname hhere
  refine ⟨hcovers, hread, ?_⟩
  obtain ⟨-, ⟨s, -, hunique, hs⟩ | ⟨e, -, he⟩⟩ :=
    carriageReturn_of_text ['$', 'a'] ['=', '"', '\r', '"', '%', '\r']
  · obtain rfl := hunique _ hcovers
    rcases hs with ⟨value, hvalue⟩ | ⟨-, hany⟩
    · cases hvalue
    · exact hany '\t' (.inr (.inl rfl))
  · have herror := he '\r' (.inr (.inr rfl))
    exact absurd (hread.symm.trans herror) (by simp)

/-- A carriage return between tokens that no newline follows. -/
theorem carriageReturn_without_newline :
    ¬ ∀ (front behind : List Char) (tokens : List Token) (s : Segment),
      Token.ofText (String.ofList (front ++ '\r' :: behind)) = .ok tokens →
      s.Covers front ('\r' :: behind) → ¬ s.IsLiteral → s.text.head? ≠ some '%' →
      behind.head? = some '\n' := by
  intro h
  have hread : Token.ofText (String.ofList ([] ++ '\r' :: ['5', '\r'])) =
      .ok [⟨.integer, .integer 5, 1⟩] := by decide +kernel
  have hblank : Segment.Fits ⟨['\r'], none⟩ ['5', '\r'] :=
    .blanks ⟨by simp, by simp [Blank], by simp [Blank]⟩
  have hcovers : Segment.Covers ⟨['\r'], none⟩ [] ['\r', '5', '\r'] :=
    .here rfl (by simp) rfl hblank
  have hnewline := h [] ['5', '\r'] _ _ hread hcovers (by simp [IsLiteral]) (by simp)
  simp at hnewline

end Tally
