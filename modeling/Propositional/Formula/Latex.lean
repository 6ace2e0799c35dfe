import Propositional.Formula.Infix

/-!
# The LaTeX form

A formula in math mode: commands for the connectives, `\left(` and `\right)` around the
operands that the infix form puts in parentheses, and names with a subscript.
-/

namespace Propositional

namespace Connective

/-- The command that typesets the connective. -/
def latex : Connective → String
  | .and => "\\wedge"
  | .or => "\\vee"
  | .xor => "\\veebar"
  | .implies => "\\Rightarrow"
  | .equiv => "\\Leftrightarrow"

end Connective

namespace Name

/-- Cuts off the decimal digits `0` to `9` at the end. -/
def splitDigits (name : List Char) : List Char × List Char :=
  ((name.reverse.dropWhile Char.isDigit).reverse, (name.reverse.takeWhile Char.isDigit).reverse)

/-- The base and the subscript of a name. The first underscore divides them, unless it
opens or ends the name; then, as in a name without one, the digits at the end are the
subscript. A name that would lose its base or its subscript has none. -/
def subscript? (name : List Char) : Option (List Char × List Char) :=
  let base := name.takeWhile (· != '_')
  let sub := (name.dropWhile (· != '_')).drop 1
  if base ≠ [] ∧ sub ≠ [] then some (base, sub)
  else
    let (base, digits) := splitDigits name
    if base ≠ [] ∧ digits ≠ [] then some (base, digits) else none

/-- An underscore in math mode starts a subscript, so one that is meant is escaped. -/
def escapeUnderscores (name : List Char) : List Char :=
  name.flatMap fun c => if c = '_' then ['\\', '_'] else [c]

/-- The name in math mode. -/
def latex (name : Name) : String :=
  let chars := name.text.toList
  String.ofList <|
    match subscript? chars with
    | some (base, sub) =>
      escapeUnderscores base ++ ['_', '\x7b'] ++ escapeUnderscores sub ++ ['\x7d']
    | none => escapeUnderscores chars

end Name

namespace Formula

/-- The text, in parentheses that grow with it if `needed`. -/
def latexParenthesized (needed : Bool) (text : String) : String :=
  if needed then "\\left(" ++ text ++ "\\right)" else text

/-- The LaTeX form of the formula. -/
def latex : Formula → String
  | .const true => "\\text\x7bTrue\x7d"
  | .const false => "\\text\x7bFalse\x7d"
  | .var name => name.latex
  | .not a => "\\neg " ++ latexParenthesized a.bracketedInNot a.latex
  | .binary op a b =>
    latexParenthesized (bracketed op .left a) a.latex ++ (" " ++ op.latex ++ " ") ++
      latexParenthesized (bracketed op .right b) b.latex

end Formula

end Propositional
