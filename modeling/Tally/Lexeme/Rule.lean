import Tally.Lexeme.Form
import Tally.Token

/-! The rules of the language: which forms there are and what becomes of each. -/

namespace Tally.Lexeme

/-- How a lexeme becomes a payload. -/
inductive Conversion where
  | verbatim
  | behindSigil
  | unquoted
  | number

/-- A backslash gives way to the character behind it. -/
def unescape : List Char → List Char
  | [] => []
  | c :: rest =>
    if c = '\\' then
      match rest with
      | [] => []
      | d :: rest => d :: unescape rest
    else c :: unescape rest

/-- The payload of a lexeme. A number beyond the largest integer has none. -/
def Conversion.payload? (conversion : Conversion) (lexeme : List Char) : Option Payload :=
  match conversion with
  | .verbatim => some (.text (String.ofList lexeme))
  | .behindSigil => some (.text (String.ofList lexeme.tail))
  | .unquoted => some (.text (String.ofList (unescape lexeme.tail.dropLast)))
  | .number =>
    let value := Nat.ofDigitChars 10 lexeme 0
    if value ≤ Int64.maxValue.toInt then some (.integer (Int64.ofNat value)) else none

inductive Action where
  | skip
  | emit (kind : Kind) (conversion : Conversion)

structure Rule where
  form : Form
  action : Action

def isBlank (c : Char) : Bool := c == ' ' || c == '\t' || c == '\r'

/-- Names consist of ASCII letters and underscores. -/
def isNameChar (c : Char) : Bool := c.isAlpha || c == '_'

def symbol (characters : List Char) (kind : Kind) : Rule :=
  ⟨.oneOf characters, .emit kind .verbatim⟩

def rules : List Rule :=
  [⟨.run isBlank, .skip⟩,
   ⟨.comment '%', .skip⟩,
   symbol ['\n', ';'] .lineEnd,
   ⟨.sigil '@' isNameChar, .emit .directive .verbatim⟩,
   symbol ['='] .equal,
   symbol [','] .comma,
   symbol ['+'] .plus,
   symbol ['-'] .minus,
   symbol ['*'] .times,
   symbol ['/'] .slash,
   ⟨.sigil '$' isNameChar, .emit .var .behindSigil⟩,
   ⟨.quoted '"', .emit .text .unquoted⟩,
   ⟨.run Char.isDigit, .emit .integer .number⟩,
   ⟨.word 'P' ['R', 'I', 'N', 'T'], .emit .print .verbatim⟩]

/-- The first rule in the table that applies, and how far it reaches. -/
def firstMatch (table : List Rule) (c : Char) (behind : List Char) : Option (Rule × Extent) :=
  table.findSome? fun rule => (rule.form.extent c behind).map (rule, ·)

end Tally.Lexeme
