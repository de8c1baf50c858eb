import Tally.Proofs.FirstFault
import Tally.Proofs.Lookahead
import Tally.Proofs.Relocation
import Tally.Proofs.Spelling

/-! Programs one after the other in one text. A line end at the end of the first one keeps them
apart, even where it only ends a comment. -/

namespace Tally

open Lexeme

namespace Segment

variable {s : Segment} {segments : List Segment} {behind others : List Char}

/-- Only the first character behind a segment counts, if there is one. -/
theorem Fits.of_head? (h : s.Fits behind) (hhead : ∀ c ∈ others.head?, c ∈ behind.head?) :
    s.Fits others := by
  have hrun : ∀ {accepts run}, MaximalRun accepts run behind → MaximalRun accepts run others :=
    fun h => ⟨h.ne_nil, h.accepted, fun c hc => h.ended c (hhead c hc)⟩
  cases h with
  | blanks h => exact .blanks (hrun h)
  | comment h => exact .comment h
  | lastComment h =>
    obtain rfl : others = [] := by
      rw [← List.head?_eq_none_iff, Option.eq_none_iff_forall_ne_some]
      simpa using hhead
    exact .lastComment h
  | symbol h => exact .symbol h
  | directive h => exact .directive (hrun h)
  | var h => exact .var (hrun h)
  | literal h => exact .literal h
  | number h hn => exact .number (hrun h) hn
  | print => exact .print

/-- A segment with a line end at its end fits in front of any text. -/
theorem Fits.of_newline (h : s.Fits behind) (hlast : s.text.getLast? = some '\n')
    (others : List Char) : s.Fits others := by
  have hmem := List.mem_of_getLast? hlast
  have hname : ¬ NameChar '\n' := by simp [NameChar]
  cases h with
  | blanks h => exact absurd (h.accepted _ hmem) (by simp [Blank])
  | comment h => exact .comment h
  | lastComment h => exact absurd hmem (by simpa using h)
  | symbol h => exact .symbol h
  | directive h =>
    have hin := (List.mem_cons.mp hmem).resolve_left (by decide)
    exact absurd (h.accepted _ hin) hname
  | var h =>
    have hin := (List.mem_cons.mp hmem).resolve_left (by decide)
    exact absurd (h.accepted _ hin) hname
  | literal h =>
    rw [← List.cons_append, List.getLast?_concat] at hlast
    exact absurd hlast (by decide)
  | number h hn => exact absurd (h.accepted _ hmem) (by simp [Digit])
  | print => exact .print

/-- Segments with a line end at their end fit in front of any text. -/
theorem fit_of_newline (h : Fit [] segments) (hlast : (textOf segments).getLast? = some '\n')
    (others : List Char) : Fit others segments := by
  induction segments with
  | nil => simp at hlast
  | cons s rest ih =>
    obtain ⟨hs, hrest⟩ := h
    by_cases hnil : textOf rest = []
    · cases rest with
      | nil => exact ⟨hs.of_newline (by simpa using hlast) _, trivial⟩
      | cons t rest => simp [hrest.1.ne_nil] at hnil
    · rw [textOf_cons, List.getLast?_append_of_ne_nil _ hnil] at hlast
      refine ⟨hs.of_head? ?_, ih hrest hlast⟩
      rw [List.append_nil, List.head?_append_of_ne_nil _ hnil]
      exact fun c hc => hc

theorem tokensOf_add (o n : Nat) (segments : List Segment) :
    tokensOf (o + n) segments = (tokensOf o segments).map (Token.relocate (· + n)) := by
  induction segments generalizing o with
  | nil => rfl
  | cons s rest ih =>
    rw [tokensOf, tokensOf, List.map_append, ← ih, Nat.add_right_comm]
    cases s.meaning <;> rfl

end Segment

open Segment

section Sources

variable {a b : String} {as bs ts us : List Token} {first second : Program}

/-- Behind a line end a text is read as if it stood alone, but for the offsets. -/
theorem Token.ofText_append (hline : a.toList.getLast? = some '\n') (ha : ofText a = .ok as)
    (hb : ofText b = .ok bs) :
    ofText (a ++ b) = .ok (as ++ bs.map (Token.relocate (· + a.length))) := by
  obtain ⟨ls, hls⟩ := exists_segmentation ha
  obtain ⟨rs, hrs⟩ := exists_segmentation hb
  obtain rfl : tokensOf 0 ls = as := Except.ok.inj ((ofText_of_segmentation hls).symm.trans ha)
  obtain rfl : tokensOf 0 rs = bs := Except.ok.inj ((ofText_of_segmentation hrs).symm.trans hb)
  have hfit := fit_of_newline hls.fit (by rwa [hls.covers]) (textOf rs)
  have happend : Segmentation (a ++ b).toList (ls ++ rs) := by
    refine ⟨?_, fit_append.mpr ⟨by rwa [List.append_nil], hrs.fit⟩⟩
    rw [textOf_append, hls.covers, hrs.covers, String.toList_append]
  rw [ofText_of_segmentation happend, tokensOf_append, hls.covers, String.length_toList,
    tokensOf_add]

theorem Program.ofTokens_append (h : ofTokens ts = .ok first) (hs : ofTokens us = .ok second) :
    ofTokens (ts ++ us) = .ok (first ++ second) := by
  obtain ⟨n, hts⟩ := ofTokens_eq_iff.mp h
  obtain ⟨m, hus⟩ := ofTokens_eq_iff.mp hs
  rw [ofTokens, read_append hts (follows_of_read hus), hus]
  rfl

end Sources

/-- Two texts of which the first one ends with a line end are one program. It is the programs of
both in a row, and runs as the second one after the first one. -/
theorem ofText_append_and_run {a b : String} {as bs : List Token} {first second : Program}
    (hline : a.toList.getLast? = some '\n')
    (has : Token.ofText a = .ok as) (hfirst : Program.ofTokens as = .ok first)
    (hbs : Token.ofText b = .ok bs) (hsecond : Program.ofTokens bs = .ok second) :
    Token.ofText (a ++ b) = .ok (as ++ bs.map (Token.relocate (· + a.length))) ∧
    Program.ofTokens (as ++ bs.map (Token.relocate (· + a.length))) = .ok (first ++ second) ∧
    Program.ofText (a ++ b) = .ok (first ++ second) ∧
    ∀ m, Program.run m (first ++ second) =
      (Program.run m first).andThen fun n => Program.run n second := by
  have htokens := Token.ofText_append hline has hbs
  have hmoved : Program.ofTokens (bs.map (Token.relocate (· + a.length))) = .ok second := by
    rw [Program.ofTokens_relocate, hsecond]
    rfl
  have hprogram := Program.ofTokens_append hfirst hmoved
  refine ⟨htokens, hprogram, Program.ofText_eq_ok_iff.mpr ⟨_, htokens, hprogram⟩, ?_⟩
  intro m
  exact Program.run_append m first second

/-- `$x=2%` and a line end that belongs to the comment, so that no token stands for it. -/
def assignSegments : List Segment :=
  [⟨['$', 'x'], some (.var, .text "x")⟩, ⟨['='], some (.equal, .text "=")⟩,
   ⟨['2'], some (.integer, .integer 2)⟩, ⟨['%', '\n'], none⟩]

/-- `PRINT$x`. -/
def printSegments : List Segment :=
  [⟨['P', 'R', 'I', 'N', 'T'], some (.print, .text "PRINT")⟩,
   ⟨['$', 'x'], some (.var, .text "x")⟩]

theorem assignSegments_printSegments :
    Token.ofText ("$x=2%\n" ++ "PRINT$x") =
      .ok [⟨.var, .text "x", 0⟩, ⟨.equal, .text "=", 2⟩, ⟨.integer, .integer 2, 3⟩,
        ⟨.print, .text "PRINT", 6⟩, ⟨.var, .text "x", 11⟩] ∧
    Program.ofText ("$x=2%\n" ++ "PRINT$x") =
      .ok ([.assign "x" (.integer 2)] ++ [.print [.var "x"]]) ∧
    (Program.run (.fresh ⟨none, .closed⟩)
      ([.assign "x" (.integer 2)] ++ [.print [.var "x"]])).output = lineBytes "2" := by
  have hassign : Fit [] assignSegments := by
    refine ⟨.var ⟨by simp, by simp [NameChar], by simp [NameChar]⟩, .symbol (by simp [symbols]), ?_,
      @Fits.comment [] _ (by simp), trivial⟩
    exact .number ⟨by simp, by simp [Digit], by simp [Digit]⟩ (by decide)
  have hprint : Fit [] printSegments :=
    ⟨.print, .var ⟨by simp, by simp [NameChar], by simp⟩, trivial⟩
  have has : Token.ofText "$x=2%\n" =
      .ok [⟨.var, .text "x", 0⟩, ⟨.equal, .text "=", 2⟩, ⟨.integer, .integer 2, 3⟩] :=
    ofText_of_segmentation ⟨by decide, hassign⟩
  have hbs : Token.ofText "PRINT$x" = .ok [⟨.print, .text "PRINT", 0⟩, ⟨.var, .text "x", 5⟩] :=
    ofText_of_segmentation ⟨by decide, hprint⟩
  obtain ⟨htokens, -, hprogram, hrun⟩ :=
    ofText_append_and_run (by decide) has (by cbv) hbs (by cbv)
  refine ⟨htokens, hprogram, ?_⟩
  rw [hrun]
  decide

end Tally
