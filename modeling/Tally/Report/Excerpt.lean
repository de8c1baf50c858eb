import Tally.Report.Failure
import Tally.Text.Lines

/-! Reports that show the line of a program in which a failure lies. -/

namespace Tally

open Text

/-- So many cells, the character in the first and dashes in the others. -/
def headed (c : Char) (width : Nat) : List Char :=
  (c :: List.replicate (width - 1) '─').take width

/-- One column of the row that marks the failure. -/
def markCells (p : Place) (column width : Nat) : List Char :=
  if column = p.column then headed '┬' width else List.replicate width ' '

/-- One column of the row that leads from the mark to the message. -/
def arrowCells (p : Place) (column width : Nat) : List Char :=
  if column < p.column then List.replicate width ' '
  else if column = p.column then headed '╰' width
  else List.replicate width '─'

/-- The columns of a row side by side. -/
def row (p : Place) (cells : Place → Nat → Nat → List Char) : String :=
  String.ofList (p.widths.mapIdx (cells p)).flatten

/-- The excerpt: a frame around the line, the mark under the place, the message
beside the arrow. -/
def excerpt (p : Place) (message : String) : List String :=
  let number := toString (p.line + 1)
  let margin := String.ofList (List.replicate (number.length + 2) ' ')
  [margin ++ "╭─[<unknown>:" ++ number ++ ":" ++ toString (p.column + 1) ++ "]",
   margin ++ "│",
   " " ++ number ++ " │ " ++ String.ofList p.shown,
   margin ++ "│ " ++ row p markCells,
   margin ++ "│ " ++ row p arrowCells ++ " " ++ message,
   String.ofList (List.replicate (number.length + 2) '─') ++ "╯"]

/-- The report of a failure of the program with this text. -/
def Failure.report (text : String) (f : Failure) : String :=
  let rows :=
    match f.offset?.bind fun offset => locate offset (lines text.toList) with
    | some p => ("Error: " ++ f.title) :: excerpt p f.message
    | none => ["Error: " ++ f.title ++ ": " ++ f.message]
  String.join (rows.map (· ++ "\n"))

end Tally
