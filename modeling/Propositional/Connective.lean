/-!
# Connectives

The five operations that join two formulas. Each has a meaning as a function of two truth
values, a symbol, a strength by which it binds, and a side to which chains of it group.
-/

namespace Propositional

inductive Connective where
  | and | or | xor | implies | equiv
deriving DecidableEq, Repr

namespace Connective

/-- The truth value of the joined formula. -/
def apply : Connective → Bool → Bool → Bool
  | .and, a, b => a && b
  | .or, a, b => a || b
  | .xor, a, b => a ^^ b
  | .implies, a, b => !a || b
  | .equiv, a, b => a == b

def symbol : Connective → String
  | .and => "&"
  | .or => "|"
  | .xor => "^"
  | .implies => ">>"
  | .equiv => "=="

/-- The stronger connective takes its operands first. -/
def strength : Connective → Nat
  | .equiv => 1
  | .implies => 2
  | .or => 3
  | .xor => 4
  | .and => 5

/-- `A >> B >> C` is `A >> (B >> C)`; a chain of any other connective groups to the left. -/
def groupsRight : Connective → Bool
  | .implies => true
  | _ => false

end Connective

end Propositional
