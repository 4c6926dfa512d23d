import SiteSurvey.Text.CharRange

/-!
# Blank characters

White space as the Unicode property `White_Space` has it, and the narrower class of characters
that may indent a line.
-/

namespace SiteSurvey.Text

/-- The property `White_Space`. -/
def blankRanges : CharRanges :=
  [(0x0009, 0x000D), (0x0020, 0x0020), (0x0085, 0x0085), (0x00A0, 0x00A0), (0x1680, 0x1680),
   (0x2000, 0x200A), (0x2028, 0x2029), (0x202F, 0x202F), (0x205F, 0x205F), (0x3000, 0x3000)]

def isBlank (c : Char) : Bool :=
  blankRanges.has c

/-- A space or a tab: what may stand before and between the words of a line. -/
def isIndent (c : Char) : Bool :=
  c == ' ' || c == '\t'

/-! ## Trimming -/

/-- Drops the characters of a class at both ends. -/
def trimBy (drop : Char → Bool) (text : List Char) : List Char :=
  ((text.dropWhile drop).reverse.dropWhile drop).reverse

/-- Drops the white space at both ends. -/
def trim (text : List Char) : List Char :=
  trimBy isBlank text

end SiteSurvey.Text
