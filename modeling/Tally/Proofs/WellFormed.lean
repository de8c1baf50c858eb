import Tally.Proofs.Spelling

/-! Well-formed programs: those that can be written, and written without parentheses.
What is read from a text is one of them. -/

namespace Tally

open Lexeme Segment

def IsName (name : String) : Prop := name ≠ "" ∧ ∀ c ∈ name.toList, NameChar c

/-- Every name and number of the tree can be written. -/
def Expr.Writable : Expr → Prop
  | var name => IsName name
  | text _ => True
  | integer value => 0 ≤ value.toInt
  | binary left _ right => left.Writable ∧ right.Writable

def Statement.WellFormed : Statement → Prop
  | assign name value => IsName name ∧ value.Writable ∧ value.Canonical
  | print items => items ≠ [] ∧ ∀ e ∈ items, e.Writable ∧ e.Canonical
  | unsupported directive => ∃ name, IsName name ∧ directive = "@" ++ name

/-- Names, directives and numbers as a text can have them. -/
def IsWritten : Kind × Option Payload → Prop
  | (.var, some (.text name)) => IsName name
  | (.directive, some (.text directive)) => ∃ name, IsName name ∧ directive = "@" ++ name
  | (.integer, some (.integer n)) => 0 ≤ n.toInt
  | _ => True

section WellFormed

variable {text behind name : List Char} {segments : List Segment} {s : Segment} {t : Token}
  {e : Expr} {es : List Expr} {statement : Statement} {item : List Token}
  {items : List (List Token)} {program : Program}

theorem Statement.canonical_of_wellFormed (h : statement.WellFormed) : statement.Canonical := by
  cases statement with
  | assign name value => exact h.2.2
  | print items => exact ⟨h.1, fun e he => (h.2 e he).2⟩
  | unsupported directive => trivial

theorem isName_of_maximalRun (h : MaximalRun NameChar name behind) :
    IsName (String.ofList name) := by
  refine ⟨?_, by simpa using h.accepted⟩
  intro hnil
  exact h.ne_nil (by simpa using congrArg String.toList hnil)

theorem Segment.Fits.isWritten (h : s.Fits behind) (o : Nat) :
    ∀ m ∈ s.meaning, Token.Agrees ⟨m.1, m.2, o⟩ ∧ IsWritten (Token.content ⟨m.1, m.2, o⟩) := by
  intro m hm
  cases h with
  | blanks | comment | lastComment => simp at hm
  | @symbol c kind _ h =>
    cases hm
    simp only [symbols, List.mem_cons, List.not_mem_nil, or_false, Prod.mk.injEq] at h
    rcases h with ⟨-, rfl⟩ | ⟨-, rfl⟩ | ⟨-, rfl⟩ | ⟨-, rfl⟩ | ⟨-, rfl⟩ | ⟨-, rfl⟩ | ⟨-, rfl⟩ |
      ⟨-, rfl⟩ <;> exact ⟨by simp [Token.Agrees], trivial⟩
  | @directive name _ h =>
    cases hm
    refine ⟨by simp [Token.Agrees], String.ofList name, isName_of_maximalRun h, ?_⟩
    rw [← String.toList_inj]
    simp
  | var h =>
    cases hm
    exact ⟨by simp [Token.Agrees], isName_of_maximalRun h⟩
  | @number digits _ h hn =>
    cases hm
    have hvalue := Int64.toInt_ofNat_of_lt hn
    refine ⟨by simp [Token.Agrees], ?_⟩
    change 0 ≤ (Int64.ofNat (Nat.ofDigitChars 10 digits 0)).toInt
    omega
  | literal | print =>
    cases hm
    exact ⟨by simp [Token.Agrees], trivial⟩

theorem isWritten_of_fit (h : Fit behind segments) (o : Nat) :
    ∀ t ∈ tokensOf o segments, t.Agrees ∧ IsWritten t.content := by
  induction segments generalizing o with
  | nil => simp [tokensOf]
  | cons s rest ih =>
    obtain ⟨hs, hrest⟩ := h
    intro t ht
    simp only [tokensOf, List.mem_append, Option.mem_toList, Option.map_eq_some_iff] at ht
    rcases ht with ⟨m, hm, rfl⟩ | ht
    · exact hs.isWritten o m hm
    · exact ih hrest _ t ht

theorem Expr.writable_of_contents (h : ∀ c ∈ e.contents, IsWritten c) : e.Writable := by
  induction e with
  | binary left op right ihl ihr =>
    simp only [contents, List.mem_append, List.mem_cons] at h
    exact ⟨ihl fun c hc => h c (.inl hc), ihr fun c hc => h c (.inr (.inr hc))⟩
  | text => trivial
  | var name => exact h (.var, some (.text name)) (by simp [contents])
  | integer value => exact h (.integer, some (.integer value)) (by simp [contents])

theorem Expr.mem_listContents {c : Kind × Option Payload} (he : e ∈ es) (hc : c ∈ e.contents) :
    c ∈ listContents es := by
  induction es with
  | nil => simp at he
  | cons d es ih =>
    by_cases hnil : es = []
    · subst hnil
      simp_all
    · rw [listContents_cons hnil]
      rcases List.mem_cons.mp he with rfl | he
      · simp [hc]
      · simp [ih he]

theorem Statement.Reads.wellFormed (h : statement.Reads item)
    (ht : ∀ t ∈ item, IsWritten t.content) : statement.WellFormed := by
  have hcontents : ∀ c ∈ statement.contents, IsWritten c := by
    intro c hc
    rw [h.contents] at hc
    obtain ⟨t, hmem, rfl⟩ := List.mem_map.mp hc
    exact ht t hmem
  have hcanonical := h.canonical
  cases statement with
  | assign name value =>
    obtain ⟨hname, hvalue⟩ := List.forall_mem_cons.mp hcontents
    obtain ⟨-, hvalue⟩ := List.forall_mem_cons.mp hvalue
    exact ⟨hname, Expr.writable_of_contents hvalue, hcanonical⟩
  | print es =>
    obtain ⟨-, hes⟩ := List.forall_mem_cons.mp hcontents
    refine ⟨hcanonical.1, fun e he => ⟨?_, hcanonical.2 e he⟩⟩
    exact Expr.writable_of_contents fun c hc => hes c (Expr.mem_listContents he hc)
  | unsupported directive =>
    exact hcontents (.directive, some (.text directive)) List.mem_cons_self

theorem wellFormed_of_reads (h : List.Forall₂ Statement.Reads items program)
    (hi : ∀ item ∈ items, ∀ t ∈ item, IsWritten t.content) : ∀ s ∈ program, s.WellFormed := by
  induction h with
  | nil => simp
  | cons hs _ ih =>
    obtain ⟨hitem, hitems⟩ := List.forall_mem_cons.mp hi
    exact List.forall_mem_cons.mpr ⟨hs.wellFormed hitem, ih hitems⟩

/-- Every statement that is read from a text is well formed. -/
theorem wellFormed_of_ofText {text : String} (h : Program.ofText text = .ok program) :
    ∀ s ∈ program, s.WellFormed := by
  obtain ⟨tokens, htokens, hprogram⟩ := Program.ofText_eq_ok_iff.mp h
  obtain ⟨segments, hsegments⟩ := exists_segmentation htokens
  obtain rfl := Except.ok.inj (htokens.symm.trans (ofText_of_segmentation hsegments))
  obtain ⟨n, hread⟩ := Program.ofTokens_eq_iff.mp hprogram
  have hwritten := isWritten_of_fit hsegments.fit 0
  obtain ⟨items, hitems, hreads⟩ := items_of_read (fun t ht => (hwritten t ht).1) hread
  apply wellFormed_of_reads hreads
  intro item hitem t ht
  have hmem : t ∈ items.flatten := List.mem_flatten.mpr ⟨item, (List.mem_filter.mp hitem).1, ht⟩
  rw [hitems.covers] at hmem
  exact (hwritten t hmem).2

end WellFormed

end Tally
