import Mathlib.Algebra.Ring.Nat
import Mathlib.Data.List.DropRight
import Tally.Proofs.Diagnosis
import Tally.Report.Excerpt

/-! Excerpts. The report of a failure that lies in one place of a text names the line and the column
of that place, shows the line, and marks the character there. -/

namespace Tally

namespace Text

/-- The end of a line in front of the text behind it. A carriage return takes a newline right behind
it along. -/
inductive LineEnd : List Char → List Char → Prop where
  | pair {behind} : LineEnd ['\r', '\n'] behind
  | single {c behind} (hc : isLineEnd c) (h : c = '\r' → behind.head? ≠ some '\n') :
      LineEnd [c] behind

/-- A text cut behind every line end. -/
inductive Lined : List Char → List (List Char) → Prop where
  | nil : Lined [] []
  | last {body} (hne : body ≠ []) (hbody : ∀ c ∈ body, ¬ isLineEnd c) : Lined body [body]
  | ended {body ending behind ls} (hbody : ∀ c ∈ body, ¬ isLineEnd c)
      (hending : LineEnd ending behind) (hbehind : Lined behind ls) :
      Lined (body ++ (ending ++ behind)) ((body ++ ending) :: ls)

section Lines

variable {text body ending behind line : List Char} {ls others : List (List Char)} {c : Char}

theorem Lined.nil_iff : Lined text [] ↔ text = [] := by
  constructor
  · rintro ⟨⟩
    rfl
  · rintro rfl
    exact .nil

/-- A character in front that ends no line goes to the first line. -/
theorem Lined.cons (hc : ¬ isLineEnd c) (h : Lined text (line :: others)) :
    Lined (c :: text) ((c :: line) :: others) := by
  have hcons : ∀ {body : List Char}, (∀ d ∈ body, ¬ isLineEnd d) →
      ∀ d ∈ c :: body, ¬ isLineEnd d := fun hbody => List.forall_mem_cons.mpr ⟨hc, hbody⟩
  cases h with
  | last hne hbody => exact .last (by simp) (hcons hbody)
  | ended hbody hending hbehind => exact .ended (hcons hbody) hending hbehind

theorem lined_lines (text : List Char) : Lined text (lines text) := by
  fun_induction lines text with
  | case1 => exact .nil
  | case2 rest ih => exact @Lined.ended [] _ _ _ (by simp) .pair ih
  | case3 c rest hpair hc ih =>
    have hsingle : c = '\r' → rest.head? ≠ some '\n' := by
      intro hr hn
      obtain ⟨others, rfl⟩ := List.head?_eq_some_iff.mp hn
      exact hpair others hr rfl
    exact @Lined.ended [] _ _ _ (by simp) (.single hc hsingle) ih
  | case4 c rest hpair hc hnil ih =>
    rw [hnil, Lined.nil_iff] at ih
    subst ih
    exact .last (by simp) (by simpa using hc)
  | case5 c rest hpair hc line others hcons ih =>
    rw [hcons] at ih
    exact ih.cons hc

theorem LineEnd.lines_append (h : LineEnd ending behind) :
    lines (ending ++ behind) = ending :: lines behind := by
  cases h with
  | pair => rw [List.cons_append, List.cons_append, List.nil_append, lines]
  | @single c _ hc h =>
    rw [List.cons_append, List.nil_append, lines, if_pos hc]
    rintro rest rfl rfl
    exact h rfl rfl

/-- A character that ends no line goes to the first line behind it, if there is one. -/
theorem lines_cons (hc : ¬ isLineEnd c) (text : List Char) :
    lines (c :: text) = (c :: (lines text).headD []) :: (lines text).tail := by
  rw [lines, if_neg hc]
  · cases lines text <;> rfl
  · rintro rest rfl
    exact absurd hc (by decide)

theorem lines_append (hbody : ∀ c ∈ body, ¬ isLineEnd c) (h : lines text = line :: others) :
    lines (body ++ text) = (body ++ line) :: others := by
  induction body with
  | nil => exact h
  | cons c body ih =>
    obtain ⟨hc, hbody⟩ := List.forall_mem_cons.mp hbody
    rw [List.cons_append, lines_cons hc, ih hbody]
    rfl

theorem lines_of_not_lineEnd (hne : body ≠ []) (hbody : ∀ c ∈ body, ¬ isLineEnd c) :
    lines body = [body] := by
  induction body with
  | nil => exact absurd rfl hne
  | cons c body ih =>
    obtain ⟨hc, hbody⟩ := List.forall_mem_cons.mp hbody
    rw [lines_cons hc]
    cases body with
    | nil => rfl
    | cons d body =>
      rw [ih (List.cons_ne_nil d body) hbody]
      rfl

/-- There is one way to cut a text into lines. -/
theorem lined_iff : Lined text ls ↔ ls = lines text := by
  constructor
  · intro h
    induction h with
    | nil => rw [lines]
    | last hne hbody => exact (lines_of_not_lineEnd hne hbody).symm
    | ended hbody hending _ ih => rw [lines_append hbody hending.lines_append, ih]
  · rintro rfl
    exact lined_lines text

/-- The place of a character tells the lines before its line and the characters before it in
there. -/
theorem exists_locate_eq {o : Nat} (h : o < ls.flatten.length) :
    ∃ p front line behind, locate o ls = some p ∧ ls = front ++ line :: behind ∧
      p.line = front.length ∧ front.flatten.length + p.column = o ∧ p.column < line.length ∧
      p.text = line.rdropWhile isSpace := by
  induction ls generalizing o with
  | nil => simp at h
  | cons first ls ih =>
    by_cases hlt : o < first.length
    · refine ⟨⟨0, o, trimmed first⟩, [], first, ls, ?_, rfl, rfl, ?_, hlt, rfl⟩
      · rw [locate, if_pos hlt]
      · simp
    · rw [List.flatten_cons, List.length_append] at h
      obtain ⟨p, front, line, behind, hp, rfl, hline, hcolumn, hlt', htext⟩ :=
        @ih (o - first.length) (by omega)
      refine ⟨{ p with line := p.line + 1 }, first :: front, line, behind, ?_, rfl, ?_, ?_, hlt',
        htext⟩
      · rw [locate, if_neg hlt, hp]
        rfl
      · rw [hline, List.length_cons]
      · rw [List.flatten_cons, List.length_append]
        change first.length + front.flatten.length + p.column = o
        omega

/-- A character is in one line only, and in one column of it. -/
theorem line_unique {front more rest : List (List Char)} {other : List Char} {column n : Nat}
    (h : front ++ line :: ls = more ++ other :: rest)
    (ho : front.flatten.length + column = more.flatten.length + n) (hcolumn : column < line.length)
    (hn : n < other.length) : front = more ∧ line = other ∧ ls = rest ∧ column = n := by
  induction front generalizing more with
  | nil =>
    cases more with
    | nil =>
      obtain ⟨rfl, rfl⟩ := List.cons.inj h
      exact ⟨rfl, rfl, rfl, by simpa using ho⟩
    | cons first more =>
      obtain ⟨rfl, -⟩ := List.cons.inj h
      rw [List.flatten_cons, List.length_append, List.flatten_nil, List.length_nil] at ho
      omega
  | cons first front ih =>
    cases more with
    | nil =>
      obtain ⟨rfl, -⟩ := List.cons.inj h
      rw [List.flatten_cons, List.length_append, List.flatten_nil, List.length_nil] at ho
      omega
    | cons second more =>
      obtain ⟨rfl, htail⟩ := List.cons.inj h
      rw [List.flatten_cons, List.flatten_cons, List.length_append, List.length_append] at ho
      obtain ⟨rfl, hrest⟩ := ih htail (by omega)
      exact ⟨rfl, hrest⟩

end Lines

/-- The line as it is quoted, from a column on: a tab becomes spaces up to the next multiple of four
columns, other white space one space, and all else stays. -/
def widened (column : Nat) : List Char → List Char
  | [] => []
  | c :: cs =>
    (if c = '\t' then List.replicate ((column / 4 + 1) * 4 - column) ' '
      else if isSpace c then [' '] else [c]) ++ widened (column + 1) cs

/-- How many cells a text takes up on a terminal. -/
def cells (text : List Char) : Nat := (text.map cellWidth).sum

section Columns

variable {front behind : List Char} {c : Char} {column : Nat}

@[simp] theorem cells_append (front behind : List Char) :
    cells (front ++ behind) = cells front + cells behind := by
  simp [cells]

@[simp] theorem cells_replicate_space (n : Nat) : cells (List.replicate n ' ') = n := by
  have hspace : cellWidth ' ' = 1 := by decide +kernel
  simp [cells, hspace]

theorem columnWidth_of_isSpace (h : isSpace c) (column : Nat) :
    columnWidth column c = if c = '\t' then (column / 4 + 1) * 4 - column else 1 := by
  have htab : 4 - column % 4 = (column / 4 + 1) * 4 - column := by omega
  rw [columnWidth, if_pos h, htab]

/-- One column as it is quoted. -/
theorem widened_cons (column : Nat) (c : Char) (behind : List Char) :
    widened column (c :: behind) =
      (if isSpace c then List.replicate (columnWidth column c) ' ' else [c]) ++
        widened (column + 1) behind := by
  have htab : isSpace '\t' := by decide
  rw [widened]
  congr 1
  by_cases hspace : isSpace c
  · rw [if_pos hspace, columnWidth_of_isSpace hspace, if_pos hspace]
    split <;> rfl
  · rw [if_neg hspace, if_neg hspace, if_neg]
    rintro rfl
    exact hspace htab

theorem widened_append (column : Nat) (front behind : List Char) :
    widened column (front ++ behind) =
      widened column front ++ widened (column + front.length) behind := by
  induction front generalizing column with
  | nil => rfl
  | cons c front ih =>
    rw [List.cons_append, widened_cons, widened_cons, ih, List.append_assoc, List.length_cons,
      Nat.add_right_comm, Nat.add_assoc]

theorem cells_widened_cons (column : Nat) (c : Char) (behind : List Char) :
    cells (widened column (c :: behind)) =
      columnWidth column c + cells (widened (column + 1) behind) := by
  rw [widened_cons, cells_append]
  congr 1
  by_cases hspace : isSpace c
  · rw [if_pos hspace, cells_replicate_space]
  · have htab : isSpace '\t' := by decide
    have hc : c ≠ '\t' := by
      rintro rfl
      exact hspace htab
    simp [cells, columnWidth, hspace, hc]

/-- White space is quoted as plain spaces. -/
theorem eq_space_of_mem_widened (h : c ∈ widened column behind) (hspace : isSpace c) : c = ' ' := by
  induction behind generalizing column with
  | nil => simp [widened] at h
  | cons d behind ih =>
    rw [widened_cons, List.mem_append] at h
    rcases h with h | h
    · by_cases hd : isSpace d
      · rw [if_pos hd] at h
        exact List.eq_of_mem_replicate h
      · rw [if_neg hd, List.mem_singleton] at h
        exact absurd (h ▸ hspace) hd
    · exact ih h

/-- The columns that are shown are the quoted line. -/
theorem flatten_mapIdx_eq (column : Nat) (text : List Char) :
    (text.mapIdx fun i c =>
      if isSpace c then List.replicate (columnWidth (i + column) c) ' ' else [c]).flatten =
      widened column text := by
  induction text generalizing column with
  | nil => rfl
  | cons c text ih =>
    rw [List.mapIdx_cons, List.flatten_cons, widened_cons, ← ih (column + 1), Nat.zero_add]
    simp only [Nat.add_right_comm]
    rfl

/-- The widths of columns come to the cells of what is quoted in them. -/
theorem sum_mapIdx_eq (column : Nat) (text : List Char) :
    (text.mapIdx fun i => columnWidth (i + column)).sum = cells (widened column text) := by
  induction text generalizing column with
  | nil => rfl
  | cons c text ih =>
    rw [List.mapIdx_cons, List.sum_cons, cells_widened_cons, ← ih (column + 1), Nat.zero_add]
    simp only [Nat.add_right_comm]
    rfl

end Columns

end Text

open Text

/-- A report with a frame around a line of the program, of which some columns are marked in the row
below. Lines and columns count from one. -/
def framed (title message : String) (line column : Nat) (quoted marks arrow : List Char) : String :=
  let margin := String.ofList (List.replicate ((toString line).length + 2) ' ')
  String.join <| List.map (· ++ "\n")
    ["Error: " ++ title,
     margin ++ "╭─[<unknown>:" ++ toString line ++ ":" ++ toString column ++ "]",
     margin ++ "│",
     " " ++ toString line ++ " │ " ++ String.ofList quoted,
     margin ++ "│ " ++ String.ofList marks,
     margin ++ "│ " ++ String.ofList arrow ++ " " ++ message,
     String.ofList (List.replicate ((toString line).length + 2) '─') ++ "╯"]

/-- The report of a failure frames this line of the text, which has the character at the offset in
this column. If the character is quoted and takes up cells, its mark begins behind those of what is
quoted before it. -/
structure Failure.Frames (f : Failure) (text : String) (o : Nat) (front : List (List Char))
    (line : List Char) (behind : List (List Char)) (column : Nat) (marks arrow : List Char) :
    Prop where
  lined : ∀ ls, Lined text.toList ls ↔ ls = front ++ line :: behind
  offset_eq : front.flatten.length + column = o
  column_lt : column < line.length
  report_eq : f.report text = framed f.title f.message (front.length + 1) (column + 1)
    (widened 0 (line.rdropWhile isSpace)) marks arrow
  spaces : ∀ c ∈ widened 0 (line.rdropWhile isSpace), isSpace c → c = ' '
  marks_eq : ∀ before c others, line.rdropWhile isSpace = before ++ c :: others →
    before.length = column → cells (widened column [c]) ≠ 0 →
      widened 0 (line.rdropWhile isSpace) = widened 0 before ++ widened column (c :: others) ∧
      ∃ more, marks = List.replicate (cells (widened 0 before)) ' ' ++ '┬' :: more

section Reports

variable {text : String} {f : Failure} {o : Nat} {p : Place} {before others : List Char} {c : Char}

theorem Text.Place.shown_eq (p : Place) : p.shown = widened 0 p.text :=
  flatten_mapIdx_eq 0 p.text

/-- The columns before the place, its own, and those behind it. -/
theorem Text.Place.widths_eq (htext : p.text = before ++ c :: others)
    (hcolumn : before.length = p.column) :
    ∃ more, p.widths = before.mapIdx columnWidth ++ columnWidth p.column c :: more := by
  have hlength : (before.mapIdx columnWidth).length = p.column := by
    rw [List.length_mapIdx, hcolumn]
  rw [Place.widths, htext, List.mapIdx_append, List.mapIdx_cons, Nat.zero_add, hcolumn,
    List.append_assoc, List.cons_append, List.take_append, hlength, Nat.add_sub_cancel_left,
    List.take_of_length_le (by omega), List.take_succ_cons]
  exact ⟨_, rfl⟩

/-- Nothing is marked before the column of the place. -/
theorem flatten_markCells {k : Nat} {widths : List Nat} (h : k + widths.length ≤ p.column) :
    (widths.mapIdx fun i => markCells p (i + k)).flatten = List.replicate widths.sum ' ' := by
  induction widths generalizing k with
  | nil => rfl
  | cons w widths ih =>
    rw [List.length_cons] at h
    have hrest := @ih (k + 1) (by omega)
    have hblank : markCells p (0 + k) w = List.replicate w ' ' := if_neg (by omega)
    rw [List.mapIdx_cons, List.flatten_cons, hblank, List.sum_cons,
      ← List.replicate_append_replicate, ← hrest]
    simp only [Nat.add_right_comm]
    rfl

/-- The mark begins behind the cells of what is quoted before the place. -/
theorem row_markCells (htext : p.text = before ++ c :: others) (hcolumn : before.length = p.column)
    (hc : cells (widened p.column [c]) ≠ 0) :
    ∃ more, row p markCells =
      String.ofList (List.replicate (cells (widened 0 before)) ' ' ++ '┬' :: more) := by
  obtain ⟨more, hwidths⟩ := p.widths_eq htext hcolumn
  have hwidth : columnWidth p.column c ≠ 0 := by
    rw [cells_widened_cons] at hc
    exact hc
  have hlength : (before.mapIdx columnWidth).length = p.column := by
    rw [List.length_mapIdx, hcolumn]
  have hbefore := @flatten_markCells p 0 (before.mapIdx columnWidth) (by omega)
  have hcells : (before.mapIdx columnWidth).sum = cells (widened 0 before) :=
    sum_mapIdx_eq 0 before
  have hmark : markCells p (0 + p.column) (columnWidth p.column c) =
      '┬' :: List.replicate (columnWidth p.column c - 1) '─' := by
    obtain ⟨n, hn⟩ := Nat.exists_eq_succ_of_ne_zero hwidth
    simp [markCells, headed, hn]
  rw [row, hwidths, List.mapIdx_append, hlength, List.mapIdx_cons, hmark, List.flatten_append,
    ← hcells, ← hbefore]
  exact ⟨_, rfl⟩

theorem report_of_locate (h : locate o (lines text.toList) = some p) (ho : f.offset? = some o) :
    f.report text = framed f.title f.message (p.line + 1) (p.column + 1) (widened 0 p.text)
      (row p markCells).toList (row p arrowCells).toList := by
  have hplace : (f.offset?.bind fun offset => locate offset (lines text.toList)) = some p := by
    rw [ho]
    exact h
  rw [Failure.report, hplace, framed, ← p.shown_eq, String.ofList_toList, String.ofList_toList]
  rfl

theorem offset_lt_of_ofText (h : Program.ofText text = .error f) (ho : f.offset? = some o) :
    o < text.length := by
  have hdiagnose : diagnose text .unlimited = some f := by rw [diagnose, h]
  exact (ho ▸ diagnosis_of_diagnose hdiagnose).lt_length

end Reports

/-- Where reading a program fails in one place of its text, the text has one line with the character
at this place, and the report names this line and the column of the character there, quotes the line
without the white space at its end, and marks the character. -/
theorem report_of_ofText {text : String} {f : Failure} {o : Nat}
    (h : Program.ofText text = .error f) (ho : f.offset? = some o) :
    ∃ front line behind column marks arrow,
      f.Frames text o front line behind column marks arrow := by
  have hlt : o < (lines text.toList).flatten.length := by
    rw [flatten_lines, String.length_toList]
    exact offset_lt_of_ofText h ho
  obtain ⟨p, front, line, behind, hp, hlines, hline, hoffset, hcolumn, htext⟩ :=
    exists_locate_eq hlt
  have hreport := report_of_locate hp ho
  rw [hline, htext] at hreport
  refine ⟨front, line, behind, p.column, _, _, ?_, hoffset, hcolumn, hreport, ?_, ?_⟩
  · intro ls
    rw [lined_iff, hlines]
  · intro c
    exact eq_space_of_mem_widened
  · intro before c others hbody hbefore hc
    obtain ⟨more, hmarks⟩ := row_markCells (htext.trans hbody) hbefore hc
    refine ⟨?_, more, by rw [hmarks, String.toList_ofList]⟩
    rw [hbody, widened_append, Nat.zero_add, hbefore]

/-- Tabs, a wide and a joining character before the failure, and white space behind it. -/
def tabbedText : String := "PRINT 1\r\n\t$a=\"中\u0301\"\t?\u00a0\n"

theorem tabbedText_report :
    let f := Failure.lexical (.unexpectedCharacter '?' 18)
    let line := "\t$a=\"中\u0301\"\t?\u00a0\n".toList
    Program.ofText tabbedText = .error f ∧ f.offset? = some 18 ∧
    ∃ more arrow, f.Frames tabbedText 18 ["PRINT 1\r\n".toList] line [] 9
      (List.replicate 15 ' ' ++ '┬' :: more) arrow := by
  intro f line
  have hf : Program.ofText tabbedText = .error f := by decide +kernel
  obtain ⟨front, shown, behind, column, marks, arrow, h⟩ :=
    report_of_ofText (o := 18) hf rfl
  have hlines : lines tabbedText.toList = ["PRINT 1\r\n".toList, line] := by decide +kernel
  have hcut := (h.lined _).mp (lined_lines _)
  rw [hlines] at hcut
  obtain ⟨rfl, rfl, rfl, rfl⟩ := @line_unique line [] ["PRINT 1\r\n".toList] front behind shown 9
    column hcut h.offset_eq.symm (by decide) h.column_lt
  have hquoted : line.rdropWhile isSpace = "\t$a=\"中\u0301\"\t".toList ++ ['?'] := by decide +kernel
  have hcells : cells (widened 0 "\t$a=\"中\u0301\"\t".toList) = 15 := by decide +kernel
  obtain ⟨-, more, hmarks⟩ := h.marks_eq _ _ _ hquoted rfl (by decide +kernel)
  rw [hcells] at hmarks
  exact ⟨hf, rfl, more, arrow, hmarks ▸ h⟩

end Tally
