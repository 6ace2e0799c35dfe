import Propositional.Connective
import Propositional.Name

/-!
# Tokens

The words and signs of a written formula, and the place of a token in its text.
-/

namespace Propositional

inductive Token where
  | word (name : Name)
  | literal (value : Bool)
  | not
  | operator (op : Connective)
  | opening
  | closing
  | comma
deriving DecidableEq, Repr

namespace Token

/-- The token as a formula shows it. A literal shows as a word, however it was written. -/
def text : Token → String
  | .word name => name.text
  | .literal true => "True"
  | .literal false => "False"
  | .not => "~"
  | .operator op => op.symbol
  | .opening => "("
  | .closing => ")"
  | .comma => ","

/-- The token as a message shows it: between backquotes. -/
def quoted (token : Token) : String := "`" ++ token.text ++ "`"

end Token

/-- A token and the column of its first character. Columns count code points from 1. -/
structure Placed where
  token : Token
  column : Nat
deriving DecidableEq, Repr

end Propositional
