import Tally.Proofs.Grammar
import Tally.Proofs.Segmentation
import Tally.Run.Pipeline

/-! Spelling. A text that is cut into segments spells the contents of their tokens, and a
program is read from every text that spells its contents. -/

namespace Tally

open Lexeme Segment

/-- The text is segments in front of the text behind it, and this is what counts of their
tokens. -/
def Spells (text : List Char) (contents : List (Kind × Option Payload)) (behind : List Char) :
    Prop :=
  ∃ segments, textOf segments = text ∧ Fit behind segments ∧
    ∀ o, (tokensOf o segments).map Token.content = contents

/-- What counts of the tokens of a program with one line end between any two statements. -/
def Program.contents (program : Program) : List (Kind × Option Payload) :=
  List.intercalate [(.lineEnd, none)] (program.map Statement.contents)

section Spelling

variable {text others run digits behind : List Char} {cs ds : List (Kind × Option Payload)}
  {c : Char} {kind : Kind} {name value : String} {s : Segment}

theorem spells_nil : Spells [] [] behind := ⟨[], rfl, trivial, fun _ => rfl⟩

theorem Spells.append (h : Spells text cs (others ++ behind)) (ho : Spells others ds behind) :
    Spells (text ++ others) (cs ++ ds) behind := by
  obtain ⟨segments, rfl, hfit, hcontents⟩ := h
  obtain ⟨more, rfl, hmore, hothers⟩ := ho
  refine ⟨segments ++ more, textOf_append, fit_append.mpr ⟨hfit, hmore⟩, fun o => ?_⟩
  rw [tokensOf_append, List.map_append, hcontents, hothers]

theorem Segment.Fits.spells (h : s.Fits behind) :
    Spells s.text (s.meaning.map fun m => Token.content ⟨m.1, m.2, 0⟩).toList behind := by
  refine ⟨[s], by simp, ⟨h, trivial⟩, fun o => ?_⟩
  cases hm : s.meaning <;> simp [tokensOf, hm, Token.content]

/-- Blanks between lexemes count for nothing, and there may be none. -/
theorem spells_gap (h : ∀ c ∈ run, Blank c) (hb : ∀ c ∈ behind.head?, ¬ Blank c) :
    Spells run [] behind := by
  by_cases hnil : run = []
  · subst hnil
    exact spells_nil
  · exact (Fits.blanks ⟨hnil, h, hb⟩).spells

theorem spells_symbol (h : (c, kind) ∈ symbols) : Spells [c] [(kind, none)] behind := by
  have hkind : kind.carries = false := by
    revert h
    cases kind <;> simp [symbols, Kind.carries]
  simpa [Token.content, hkind] using (@Fits.symbol c kind behind h).spells

theorem spells_op (op : Op) : Spells [op.symbol] [(op.kind, none)] behind :=
  spells_symbol (by cases op <;> decide)

theorem spells_print : Spells "PRINT".toList [(.print, none)] behind :=
  Fits.print.spells

theorem spells_var (h : MaximalRun NameChar name.toList behind) :
    Spells ('$' :: name.toList) [(.var, some (.text name))] behind := by
  simpa [Token.content, Kind.carries] using (Fits.var h).spells

theorem spells_directive (h : MaximalRun NameChar name.toList behind) :
    Spells ('@' :: name.toList) [(.directive, some (.text ("@" ++ name)))] behind := by
  have hname : String.ofList ('@' :: name.toList) = "@" ++ name := by
    rw [← String.toList_inj]
    simp
  simpa [Token.content, Kind.carries, hname] using (Fits.directive h).spells

theorem spells_literal {body : List LiteralChar} (h : ∀ u ∈ body, u.Valid '"') :
    Spells ('"' :: (LiteralChar.written body ++ ['"']))
      [(.text, some (.text (String.ofList (body.map LiteralChar.char))))] behind :=
  (Fits.literal h).spells

theorem spells_number (h : MaximalRun Digit digits behind)
    (hn : Nat.ofDigitChars 10 digits 0 < 2 ^ 63) :
    Spells digits [(.integer, some (.integer (.ofNat (Nat.ofDigitChars 10 digits 0))))] behind :=
  (Fits.number h hn).spells

end Spelling

section Programs

variable {program : Program} {s : Statement} {tokens : List Token}

@[simp] theorem Program.contents_singleton : Program.contents [s] = s.contents := by
  simp [contents]

theorem Program.contents_cons (h : program ≠ []) :
    contents (s :: program) = s.contents ++ (.lineEnd, none) :: contents program := by
  simp [contents, List.intercalate_cons_of_ne_nil (mt List.map_eq_nil_iff.mp h)]

/-- Tokens with the contents of a program are its statements as items, and line ends. -/
theorem exists_items (hc : ∀ s ∈ program, s.Canonical)
    (h : tokens.map Token.content = program.contents) :
    ∃ items, Decomposition tokens items ∧
      List.Forall₂ Statement.Reads (statementItems items) program := by
  induction program generalizing tokens with
  | nil =>
    obtain rfl := List.map_eq_nil_iff.mp h
    exact ⟨[], ⟨rfl, by simp⟩, .nil⟩
  | cons s program ih =>
    obtain ⟨hs, hprogram⟩ := List.forall_mem_cons.mp hc
    by_cases hnil : program = []
    · subst hnil
      rw [Program.contents_singleton] at h
      have hreads : s.Reads tokens := ⟨h.symm, hs⟩
      refine ⟨[tokens], ⟨by simp, by simpa using isItem_of_reads hreads⟩, ?_⟩
      rw [statementItems_cons (kinds_of_reads hreads)]
      exact .cons hreads .nil
    · rw [Program.contents_cons hnil] at h
      obtain ⟨item, others, rfl, hitem, hothers⟩ := List.map_eq_append_iff.mp h
      obtain ⟨t, rest, rfl, ht, hrest⟩ := List.map_eq_cons_iff.mp hothers
      obtain ⟨items, ⟨rfl, hitems⟩, hreads⟩ := ih hprogram hrest
      have hs : s.Reads item := ⟨hitem.symm, hs⟩
      have hend : t.kind = .lineEnd := congrArg Prod.fst ht
      refine ⟨item :: [t] :: items, ⟨by simp, ?_⟩, ?_⟩
      · exact List.forall_mem_cons.mpr ⟨isItem_of_reads hs,
          List.forall_mem_cons.mpr ⟨.lineEnd hend, hitems⟩⟩
      · rw [statementItems_cons (kinds_of_reads hs), statementItems_lineEnd hend]
        exact .cons hs hreads

theorem Program.ofText_eq_ok_iff {text : String} : ofText text = .ok program ↔
    ∃ tokens, Token.ofText text = .ok tokens ∧ ofTokens tokens = .ok program := by
  rw [ofText]
  cases htokens : Token.ofText text with
  | error e => simp
  | ok tokens => cases hprogram : ofTokens tokens <;> simp [hprogram, Except.mapError]

/-- A program is read from a text that spells it, if it needs no parentheses. -/
theorem Program.ofText_of_spells {text : List Char} (hc : ∀ s ∈ program, s.Canonical)
    (h : Spells text program.contents []) : ofText (String.ofList text) = .ok program := by
  obtain ⟨segments, hcovers, hfit, hcontents⟩ := h
  have htokens : Token.ofText (String.ofList text) = .ok (tokensOf 0 segments) :=
    ofText_of_segmentation ⟨by simpa using hcovers, hfit⟩
  obtain ⟨items, hitems, hreads⟩ := exists_items hc (hcontents 0)
  have hread := read_of_items hitems.isItem hreads
  rw [hitems.covers] at hread
  exact ofText_eq_ok_iff.mpr ⟨_, htokens, ofTokens_eq_iff.mpr ⟨_, hread⟩⟩

end Programs

end Tally
