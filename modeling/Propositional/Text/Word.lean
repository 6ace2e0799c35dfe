import Propositional.Text.Alphabetic
import Propositional.Text.Numeric

/-!
# Words

A word is a letter or an underscore, followed by letters, digits and underscores.
Letters and digits are those of any script.
-/

namespace Propositional.Text

/-- Characters that may open a word. -/
def isWordStart (c : Char) : Bool := isAlphabetic c || c == '_'

/-- Characters that may continue a word. -/
def isWordChar (c : Char) : Bool := isAlphabetic c || isNumeric c || c == '_'

/-- Whether the characters form one word. -/
def isWord : List Char → Bool
  | [] => false
  | c :: rest => isWordStart c && rest.all isWordChar

end Propositional.Text
