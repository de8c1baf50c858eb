import Tally.Text.CellWidth
import Tally.Text.Space

/-! The lines of a text, and where on a terminal the columns of a line begin. -/

namespace Tally.Text

def isLineEnd (c : Char) : Bool :=
  c ∈ ['\n', '\r', '\x0b', '\x0c', '\u0085', '\u2028', '\u2029']

/-- The lines, each with its end. A carriage return and a newline right behind
it are one end. -/
def lines : List Char → List (List Char)
  | [] => []
  | '\r' :: '\n' :: rest => ['\r', '\n'] :: lines rest
  | c :: rest =>
    if isLineEnd c then [c] :: lines rest
    else
      match lines rest with
      | [] => [[c]]
      | line :: others => (c :: line) :: others

theorem flatten_lines (text : List Char) : (lines text).flatten = text := by
  fun_induction lines text <;> simp_all

/-- A character of a text by its line. Lines and columns count from zero. -/
structure Place where
  line : Nat
  column : Nat
  /-- The line without its end. -/
  text : List Char

/-- The line without the white space at its end. -/
def trimmed (line : List Char) : List Char := (line.reverse.dropWhile isSpace).reverse

/-- The place of the character that this many others come before. -/
def locate (offset : Nat) : List (List Char) → Option Place
  | [] => none
  | line :: others =>
    if offset < line.length then some ⟨0, offset, trimmed line⟩
    else (locate (offset - line.length) others).map fun p => { p with line := p.line + 1 }

/-- Cells from the column to the next one. A tab goes on to the next multiple of
four columns, other white space takes one cell. -/
def columnWidth (column : Nat) (c : Char) : Nat :=
  if c = '\t' then 4 - column % 4 else if isSpace c then 1 else cellWidth c

/-- Cells of every column up to the second one behind the place. Beyond the line a
column takes one. -/
def Place.widths (p : Place) : List Nat :=
  (p.text.mapIdx columnWidth ++ List.replicate (p.column + 3) 1).take (p.column + 3)

/-- The line as it is shown, its white space made of plain spaces. -/
def Place.shown (p : Place) : List Char :=
  (p.text.mapIdx fun column c =>
    if isSpace c then List.replicate (columnWidth column c) ' ' else [c]).flatten

end Tally.Text
