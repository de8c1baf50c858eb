/-! The forms a lexeme can take. A form looks at a character and at those behind
it, and says how many of the latter belong to the lexeme. -/

namespace Tally.Lexeme

inductive Form where
  /-- As many of these characters as there are, at least one. -/
  | run (accepts : Char → Bool)
  | oneOf (characters : List Char)
  | word (first : Char) (others : List Char)
  /-- The mark and a run right behind it. -/
  | sigil (mark : Char) (accepts : Char → Bool)
  /-- From the mark up to and including the next newline, or to the end. -/
  | comment (mark : Char)
  /-- Between two delimiters. A backslash takes the next character with it. -/
  | quoted (delimiter : Char)

inductive Extent where
  /-- So many characters behind the first. -/
  | closed (more : Nat)
  /-- The opening delimiter is there and the closing one is not. -/
  | unclosed (delimiter : Char)
deriving DecidableEq

/-- The characters up to and including the next newline, or all of them. -/
def throughNewline : List Char → Nat
  | [] => 0
  | c :: rest => if c = '\n' then 1 else throughNewline rest + 1

/-- The characters up to and including a closing delimiter. -/
def throughClosing (delimiter : Char) : List Char → Option Nat
  | [] => none
  | c :: rest =>
    if c = '\\' then
      match rest with
      | [] => none
      | _ :: rest => (throughClosing delimiter rest).map (· + 2)
    else if c = delimiter then some 1
    else (throughClosing delimiter rest).map (· + 1)

/-- How far a lexeme of the form reaches, if one begins with the character. -/
def Form.extent (form : Form) (c : Char) (behind : List Char) : Option Extent :=
  match form with
  | .run accepts => if accepts c then some (.closed (behind.takeWhile accepts).length) else none
  | .oneOf characters => if c ∈ characters then some (.closed 0) else none
  | .word first others =>
    if c = first ∧ others <+: behind then some (.closed others.length) else none
  | .sigil mark accepts =>
    if c = mark ∧ behind.takeWhile accepts ≠ [] then
      some (.closed (behind.takeWhile accepts).length)
    else none
  | .comment mark => if c = mark then some (.closed (throughNewline behind)) else none
  | .quoted delimiter =>
    if c = delimiter then
      match throughClosing delimiter behind with
      | some more => some (.closed more)
      | none => some (.unclosed delimiter)
    else none

end Tally.Lexeme
