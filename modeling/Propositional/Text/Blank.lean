import Propositional.Text.Ranges

/-!
# White space

The `White_Space` property of Unicode, and lines without blanks at their end.
Neither the information separators (U+001C to U+001F) nor the zero-width spaces
(U+200B, U+FEFF) are white space.
-/

namespace Propositional.Text

/-- The code points with the property `White_Space`. -/
def blankRanges : List (Nat × Nat) :=
  [(0x9, 0xD), (0x20, 0x20), (0x85, 0x85), (0xA0, 0xA0), (0x1680, 0x1680),
   (0x2000, 0x200A), (0x2028, 0x2029), (0x202F, 0x202F), (0x205F, 0x205F), (0x3000, 0x3000)]

/-- Characters that separate tokens and carry no meaning of their own. -/
def isBlank (c : Char) : Bool := inRanges blankRanges c.toNat

/-- The line without the blanks at its end. -/
def trimEnd (line : List Char) : List Char := (line.reverse.dropWhile isBlank).reverse

end Propositional.Text
