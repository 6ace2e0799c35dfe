import Propositional.Formula

/-!
# The infix form

A formula is written with the symbols of its connectives between their operands, one
space on each side, and with parentheses only around the operands that need them.
-/

namespace Propositional

/-- The two places of an operand of a connective. -/
inductive Side where
  | left | right
deriving DecidableEq, Repr

namespace Formula

/-- How strongly the outermost operation binds. Negation binds more strongly than every
connective, and a constant or variable never comes apart. -/
def strength : Formula → Nat
  | .const _ | .var _ => 7
  | .not _ => 6
  | .binary op _ _ => op.strength

/-- Whether an operand of a connective stands in parentheses: it does if it binds less
strongly, and on the side to which chains do not group also if it binds as strongly. -/
def bracketed (op : Connective) (side : Side) (operand : Formula) : Bool :=
  if op.groupsRight == (side == .left) then operand.strength ≤ op.strength
  else operand.strength < op.strength

/-- Whether the operand of a negation stands in parentheses. -/
def bracketedInNot (operand : Formula) : Bool := operand.strength < 6

/-- The text, in parentheses if `needed`. -/
def parenthesized (needed : Bool) (text : String) : String :=
  if needed then "(" ++ text ++ ")" else text

/-- The infix form of the formula. -/
def text : Formula → String
  | .const true => "True"
  | .const false => "False"
  | .var name => name.text
  | .not a => "~" ++ parenthesized a.bracketedInNot a.text
  | .binary op a b =>
    parenthesized (bracketed op .left a) a.text ++ (" " ++ op.symbol ++ " ") ++
      parenthesized (bracketed op .right b) b.text

end Formula

end Propositional
