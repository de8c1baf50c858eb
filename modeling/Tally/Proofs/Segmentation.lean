import Tally.Proofs.Segment

/-! Texts cut into segments. Reading tokens succeeds on exactly the texts that can be cut,
there is only one way to cut, and the segments give the tokens. -/

namespace Tally

open Lexeme

/-- The first scanner comes to the second one in some steps over layout and over these tokens. -/
inductive Scanner.Passes : Scanner → List Token → Scanner → Prop where
  | refl {s} : Passes s [] s
  | blank {c cs o more tokens s} (h : step rules c cs o = .blank more)
      (hs : Passes (behind ⟨c :: cs, o⟩ (1 + more)) tokens s) : Passes ⟨c :: cs, o⟩ tokens s
  | token {c cs o t more tokens s} (h : step rules c cs o = .token t more)
      (hs : Passes (behind ⟨c :: cs, o⟩ (1 + more)) tokens s) : Passes ⟨c :: cs, o⟩ (t :: tokens) s

/-- What is read is what the scanner passes and what is read from there on. -/
theorem Scanner.Passes.tokens_eq {s t : Scanner} {tokens : List Token}
    (h : s.Passes tokens t) : s.tokens rules = (t.tokens rules).map (tokens ++ ·) := by
  induction h with
  | @refl s => cases s.tokens rules <;> rfl
  | @blank c cs o more tokens s hstep hs ih => rw [Scanner.tokens_cons, hstep, ← ih, behind_cons]
  | @token c cs o u more tokens s hstep hs ih =>
    rw [behind_cons] at ih
    rw [Scanner.tokens_cons, hstep]
    simp only [ih]
    cases s.tokens rules <;> rfl

namespace Segment

/-- The text of segments in a row. -/
def textOf (segments : List Segment) : List Char := segments.flatMap text

/-- Each segment fits in front of those after it and of the text behind them all. -/
def Fit (behind : List Char) : List Segment → Prop
  | [] => True
  | s :: rest => s.Fits (textOf rest ++ behind) ∧ Fit behind rest

/-- The tokens of segments in a row, of which the first one starts at the offset. -/
def tokensOf (offset : Nat) : List Segment → List Token
  | [] => []
  | s :: rest =>
    (s.meaning.map fun m => ⟨m.1, m.2, offset⟩).toList ++ tokensOf (offset + s.text.length) rest

variable {s t : Segment} {segments others : List Segment} {text behind : List Char}

@[simp] theorem textOf_nil : textOf [] = [] := rfl

@[simp] theorem textOf_cons : textOf (s :: segments) = s.text ++ textOf segments := by
  simp [textOf]

@[simp] theorem textOf_append : textOf (segments ++ others) = textOf segments ++ textOf others := by
  simp [textOf]

theorem fit_append :
    Fit behind (segments ++ others) ↔
      Fit (textOf others ++ behind) segments ∧ Fit behind others := by
  induction segments with
  | nil => simp [Fit]
  | cons s rest ih => simp [Fit, ih, and_assoc]

theorem tokensOf_append (offset : Nat) :
    tokensOf offset (segments ++ others) =
      tokensOf offset segments ++ tokensOf (offset + (textOf segments).length) others := by
  induction segments generalizing offset with
  | nil => simp [tokensOf]
  | cons s rest ih => simp [tokensOf, ih, Nat.add_assoc]

/-- A token is that of one segment, and its offset counts the characters before that. -/
theorem exists_segment_of_mem_tokensOf {token : Token} {o : Nat} (h : token ∈ tokensOf o segments) :
    ∃ front s rest, segments = front ++ s :: rest ∧
      s.meaning = some (token.kind, token.payload) ∧
      token.offset = o + (textOf front).length := by
  induction segments generalizing o with
  | nil => simp [tokensOf] at h
  | cons s rest ih =>
    rw [tokensOf, List.mem_append] at h
    rcases h with h | h
    · obtain ⟨⟨kind, payload⟩, hm, rfl⟩ : ∃ m, s.meaning = some m ∧
          (⟨m.1, m.2, o⟩ : Token) = token := by simpa using h
      exact ⟨[], s, rest, rfl, hm, rfl⟩
    · obtain ⟨front, found, others, rfl, hm, hoffset⟩ := ih h
      refine ⟨s :: front, found, others, rfl, hm, ?_⟩
      rw [hoffset, textOf_cons, List.length_append, Nat.add_assoc]

theorem Fits.ne_nil (h : s.Fits behind) : s.text ≠ [] := by
  obtain ⟨c, cs, htext, -⟩ := h.step_eq
  simp [htext]

/-- A scanner passes a segment and yields its token. -/
theorem Fits.passes {scanner : Scanner} {tokens : List Token} {o : Nat} (h : s.Fits behind)
    (hrest : Scanner.Passes ⟨behind, o + s.text.length⟩ tokens scanner) :
    Scanner.Passes ⟨s.text ++ behind, o⟩
      ((s.meaning.map fun m => (⟨m.1, m.2, o⟩ : Token)).toList ++ tokens) scanner := by
  obtain ⟨c, cs, htext, hstep⟩ := h.step_eq
  have hstep := hstep o
  have hbehind : (⟨behind, o + s.text.length⟩ : Scanner) =
      Scanner.behind ⟨c :: (cs ++ behind), o⟩ (1 + cs.length) := by
    simp [Scanner.behind, htext, Nat.add_comm 1]
  rw [hbehind] at hrest
  rw [step, htext, List.tail_cons] at hstep
  rw [htext]
  cases hm : s.meaning with
  | none =>
    rw [hm] at hstep
    exact .blank hstep hrest
  | some m =>
    rw [hm] at hstep
    exact .token hstep hrest

theorem passes_of_fit (h : Fit behind segments) (o : Nat) :
    Scanner.Passes ⟨textOf segments ++ behind, o⟩ (tokensOf o segments)
      ⟨behind, o + (textOf segments).length⟩ := by
  induction segments generalizing o with
  | nil => exact .refl
  | cons s rest ih =>
    rw [textOf_cons, List.append_assoc, List.length_append, ← Nat.add_assoc]
    exact h.1.passes (ih h.2 _)

theorem Fits.tokens_eq (h : s.Fits behind) (o : Nat) :
    Scanner.tokens rules ⟨s.text ++ behind, o⟩ =
      (Scanner.tokens rules ⟨behind, o + s.text.length⟩).map
        ((s.meaning.map fun m => (⟨m.1, m.2, o⟩ : Token)).toList ++ ·) := by
  have htokens := (h.passes (@Scanner.Passes.refl ⟨behind, o + s.text.length⟩)).tokens_eq
  rwa [List.append_nil] at htokens

theorem tokens_append (h : Fit behind segments) (o : Nat) :
    Scanner.tokens rules ⟨textOf segments ++ behind, o⟩ =
      (Scanner.tokens rules ⟨behind, o + (textOf segments).length⟩).map
        (tokensOf o segments ++ ·) :=
  (passes_of_fit h o).tokens_eq

theorem tokens_of_fit (h : Fit [] segments) (o : Nat) :
    Scanner.tokens rules ⟨textOf segments, o⟩ = .ok (tokensOf o segments) := by
  have ht := tokens_append h o
  rw [List.append_nil, Scanner.tokens_nil] at ht
  simpa [Except.map] using ht

/-- Every text is segments up to a place where the scanner gets stuck or the text ends. -/
theorem exists_fit (text : List Char) :
    ∃ segments behind, text = textOf segments ++ behind ∧ Fit behind segments ∧ Stuck behind := by
  by_cases h : Stuck text
  · exact ⟨[], text, rfl, trivial, h⟩
  · simp only [Stuck, not_forall, not_not] at h
    obtain ⟨s, rest, htext, hs⟩ := h
    have hlt : rest.length < text.length := by
      have hpos := List.length_pos_iff.mpr hs.ne_nil
      rw [htext, List.length_append]
      omega
    obtain ⟨segments, behind, hrest, hfit, hstuck⟩ := exists_fit rest
    exact ⟨s :: segments, behind, by simp [htext, hrest], ⟨hrest ▸ hs, hfit⟩, hstuck⟩
termination_by text.length

theorem tokens_of_stuck (h : Stuck text) (hne : text ≠ []) (o : Nat) :
    ∃ e, Scanner.tokens rules ⟨text, o⟩ = .error e := by
  obtain ⟨c, cs, rfl⟩ := List.exists_cons_of_ne_nil hne
  obtain ⟨e, n, hstep⟩ := step_of_stuck h o
  exact ⟨e, by rw [Scanner.tokens_cons, hstep]⟩

/-- What is in front of a text and the text itself determine a segment. -/
theorem Fits.unique {b : List Char} (hs : s.Fits behind) (ht : t.Fits b)
    (h : s.text ++ behind = t.text ++ b) : s = t ∧ behind = b := by
  obtain ⟨c, cs, hstext, hsstep⟩ := hs.step_eq
  obtain ⟨d, ds, httext, htstep⟩ := ht.step_eq
  rw [hstext, httext, List.cons_append, List.cons_append] at h
  obtain ⟨rfl, hcs⟩ := List.cons.inj h
  have hstep : s.step 0 = t.step 0 := by rw [← hsstep, ← htstep, hcs]
  rw [step, step, hstext, httext, List.tail_cons, List.tail_cons] at hstep
  have hmeaning : s.meaning = t.meaning ∧ cs.length = ds.length := by
    cases hms : s.meaning <;> cases hmt : t.meaning <;> simp_all [Prod.ext_iff]
  obtain ⟨rfl, rfl⟩ := List.append_inj hcs hmeaning.2
  obtain ⟨stext, smeaning⟩ := s
  obtain ⟨ttext, tmeaning⟩ := t
  simp_all

theorem fit_unique (hs : Fit [] segments) (ho : Fit [] others)
    (h : textOf segments = textOf others) : segments = others := by
  induction segments generalizing others with
  | nil =>
    cases others with
    | nil => rfl
    | cons t others => simp [ho.1.ne_nil] at h
  | cons s segments ih =>
    cases others with
    | nil => simp [hs.1.ne_nil] at h
    | cons t others =>
      simp only [Fit, List.append_nil] at hs ho
      obtain ⟨rfl, hrest⟩ := hs.1.unique ho.1 (by simpa using h)
      rw [ih hs.2 ho.2 hrest]

end Segment

/-- A text cut into segments. -/
structure Segmentation (text : List Char) (segments : List Segment) : Prop where
  covers : Segment.textOf segments = text
  fit : Segment.Fit [] segments

open Segment

theorem ofText_of_segmentation {text : String} {segments : List Segment}
    (h : Segmentation text.toList segments) : Token.ofText text = .ok (tokensOf 0 segments) := by
  rw [Token.ofText, Scanner.ofText, ← h.covers]
  exact tokens_of_fit h.fit 0

theorem exists_segmentation {text : String} {tokens : List Token}
    (h : Token.ofText text = .ok tokens) : ∃ segments, Segmentation text.toList segments := by
  obtain ⟨segments, behind, htext, hfit, hstuck⟩ := exists_fit text.toList
  by_cases hnil : behind = []
  · subst hnil
    exact ⟨segments, by simpa using htext.symm, hfit⟩
  · obtain ⟨e, he⟩ := tokens_of_stuck hstuck hnil (0 + (textOf segments).length)
    rw [Token.ofText, Scanner.ofText, htext, tokens_append hfit, he] at h
    cases h

/-- Where reading tokens fails, there are segments in front and none behind, and the step there
fails. -/
theorem exists_fit_of_error {text : String} {e : LexicalError} (h : Token.ofText text = .error e) :
    ∃ segments c cs n, text.toList = textOf segments ++ c :: cs ∧ Fit (c :: cs) segments ∧
      Stuck (c :: cs) ∧ Scanner.step rules c cs (textOf segments).length = .failed e n := by
  obtain ⟨segments, behind, htext, hfit, hstuck⟩ := exists_fit text.toList
  rw [Token.ofText, Scanner.ofText, htext, tokens_append hfit, Nat.zero_add] at h
  cases behind with
  | nil =>
    rw [Scanner.tokens_nil] at h
    cases h
  | cons c cs =>
    obtain ⟨other, n, hstep⟩ := step_of_stuck hstuck (textOf segments).length
    rw [Scanner.tokens_cons, hstep] at h
    cases h
    exact ⟨segments, c, cs, n, htext, hfit, hstuck, hstep⟩

/-- Tokens are read from exactly the texts that are segments in a row, and from each
segment that is no layout comes one of them. -/
theorem ofText_eq_ok_iff_segmentation (text : String) :
    (∀ tokens, Token.ofText text = .ok tokens ↔
      ∃ segments, Segmentation text.toList segments ∧ tokensOf 0 segments = tokens) ∧
    ∀ segments others, Segmentation text.toList segments → Segmentation text.toList others →
      segments = others := by
  refine ⟨fun tokens => ⟨fun h => ?_, ?_⟩, ?_⟩
  · obtain ⟨segments, hsegments⟩ := exists_segmentation h
    have hok := ofText_of_segmentation hsegments
    rw [hok] at h
    exact ⟨segments, hsegments, Except.ok.inj h⟩
  · rintro ⟨segments, hsegments, rfl⟩
    exact ofText_of_segmentation hsegments
  · intro segments others hs ho
    exact fit_unique hs.fit ho.fit (hs.covers.trans ho.covers.symm)

/-- `$a="\""`, a comment behind a blank, and `PRINT12` on the next line. -/
def sampleSegments : List Segment :=
  [⟨['$', 'a'], some (.var, .text "a")⟩, ⟨['='], some (.equal, .text "=")⟩,
   ⟨['"', '\\', '"', '"'], some (.text, .text "\"")⟩, ⟨[' '], none⟩, ⟨['%', 'x', '\n'], none⟩,
   ⟨['P', 'R', 'I', 'N', 'T'], some (.print, .text "PRINT")⟩,
   ⟨['1', '2'], some (.integer, .integer 12)⟩]

theorem sampleSegments_segmentation :
    Segmentation "$a=\"\\\"\" %x\nPRINT12".toList sampleSegments ∧
    Token.ofText "$a=\"\\\"\" %x\nPRINT12" =
      .ok [⟨.var, .text "a", 0⟩, ⟨.equal, .text "=", 2⟩, ⟨.text, .text "\"", 3⟩,
        ⟨.print, .text "PRINT", 11⟩, ⟨.integer, .integer 12, 16⟩] ∧
    ∀ others, Segmentation "$a=\"\\\"\" %x\nPRINT12".toList others → others = sampleSegments := by
  have hfit : Fit [] sampleSegments := by
    refine ⟨.var ⟨by simp, by simp [NameChar], by simp [NameChar]⟩, .symbol (by simp [symbols]),
      @Fits.literal [.escaped '"'] _ (by simp [LiteralChar.Valid]),
      .blanks ⟨by simp, by simp [Blank], by simp [Blank]⟩, @Fits.comment ['x'] _ (by simp),
      .print, ?_, trivial⟩
    exact .number ⟨by simp, by simp [Digit], by simp⟩ (by decide)
  have hsegmentation : Segmentation "$a=\"\\\"\" %x\nPRINT12".toList sampleSegments :=
    ⟨by decide, hfit⟩
  obtain ⟨hiff, hunique⟩ := ofText_eq_ok_iff_segmentation "$a=\"\\\"\" %x\nPRINT12"
  exact ⟨hsegmentation, (hiff _).mpr ⟨sampleSegments, hsegmentation, rfl⟩,
    fun others h => hunique others sampleSegments h hsegmentation⟩

end Tally
