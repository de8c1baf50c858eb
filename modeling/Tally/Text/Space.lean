import Tally.Text.CodeRange

/-! White space: the property White_Space of Unicode. -/

namespace Tally.Text

def spaceRanges : List CodeRange :=
  [(0x9, 0xD), (0x20, 0x20), (0x85, 0x85), (0xA0, 0xA0), (0x1680, 0x1680), (0x2000, 0x200A),
   (0x2028, 0x2029), (0x202F, 0x202F), (0x205F, 0x205F), (0x3000, 0x3000)]

/-- White space in the sense of Unicode, line ends included. -/
def isSpace (c : Char) : Bool := inRanges c spaceRanges

end Tally.Text
