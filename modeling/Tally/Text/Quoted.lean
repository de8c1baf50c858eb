import Tally.Text.Hidden

/-! Quoted text for messages: whatever a reader could overlook is spelled out. -/

namespace Tally.Text

/-- A character as it stands between two of the delimiters. -/
def escaped (delimiter c : Char) : String :=
  if c = '\x00' then "\\0"
  else if c = '\t' then "\\t"
  else if c = '\r' then "\\r"
  else if c = '\n' then "\\n"
  else if c = '\\' ∨ c = delimiter then String.ofList ['\\', c]
  else if isHidden c then "\\u\x7b" ++ String.ofList (Nat.toDigits 16 c.toNat) ++ "\x7d"
  else String.singleton c

def quotedChar (c : Char) : String := "'" ++ escaped '\'' c ++ "'"

def quoted (text : String) : String :=
  "\"" ++ String.join (text.toList.map (escaped '"')) ++ "\""

end Tally.Text
