import MakeOutline.Text.CharRange

/-!
# Blank characters

The characters with the Unicode property `White_Space`.  They separate words and are what trimming
removes; the information separators U+001C to U+001F, the zero width space and the byte order mark
are not among them.
-/

namespace MakeOutline

def blankRanges : List CharRange :=
  [(0x9, 0xd), (0x20, 0x20), (0x85, 0x85), (0xa0, 0xa0), (0x1680, 0x1680), (0x2000, 0x200a),
    (0x2028, 0x2029), (0x202f, 0x202f), (0x205f, 0x205f), (0x3000, 0x3000)]

def isBlank (c : Char) : Bool := inRanges c blankRanges

end MakeOutline
