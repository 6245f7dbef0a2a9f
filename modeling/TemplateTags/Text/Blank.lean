import TemplateTags.Text.CodeRange
import TemplateTags.Text.Basic
/-!
# Blank characters

On a line the space and the tab are blanks (`isLineBlank`); elsewhere line ends
and all other spaces are too (`isBlank`). `Text.trim` removes the latter from
both ends of a text.
-/

namespace TemplateTags

/-- The code points of blank characters. -/
def blankRanges : CodeRanges :=
  [(0x9, 0xD), (0x20, 0x20), (0x85, 0x85), (0xA0, 0xA0), (0x1680, 0x1680),
    (0x2000, 0x200A),
    (0x2028, 0x2029), (0x202F, 0x202F), (0x205F, 0x205F), (0x3000, 0x3000)]

def isLineBlank (c : Char) : Bool := c == ' ' || c == '\t'

/-- Whether a character is a space, a line end or another blank. -/
def isBlank (c : Char) : Bool := blankRanges.contains c.toNat

/-- The text without blanks at its ends. -/
def Text.trim (text : Text) : Text :=
  ((text.dropWhile isBlank).reverse.dropWhile isBlank).reverse

end TemplateTags
