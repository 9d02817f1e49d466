import ClassLineage.Text.CodeRanges
import ClassLineage.Text.Trim

/-!
# Blank characters

The characters that count as blank space in a text: the controls from tab to
carriage return, the four information separators with the space, and the spaces
and line ends beyond ASCII.

## Main definitions

* `isBlank` — the character is blank.
* `isBlankText` — the text holds blank characters only.
* `strip` — the text without the blanks at its two ends.
-/

namespace ClassLineage
namespace Text

/-- The blank characters. -/
def blankRanges : CodeRanges :=
  [(0x9, 0xD), (0x1C, 0x20), (0x85, 0x85), (0xA0, 0xA0), (0x1680, 0x1680), (0x2000, 0x200A),
    (0x2028, 0x2029), (0x202F, 0x202F), (0x205F, 0x205F), (0x3000, 0x3000)]

/-- The character is blank. -/
def isBlank (c : Char) : Bool := blankRanges.contains c.toNat

/-- The text holds nothing but blank characters, if anything. -/
def isBlankText (s : String) : Bool := s.toList.all isBlank

/-- The text without the blank characters at its two ends. -/
def strip (s : String) : String := trimBoth isBlank s

end Text
end ClassLineage
