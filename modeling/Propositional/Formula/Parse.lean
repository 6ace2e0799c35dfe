import Propositional.Reading.Levels

/-!
# Reading a formula

`Formula.parse` reads a text that is a formula as a whole. A constant alone is well
formed and still no formula for a table.
-/

namespace Propositional

inductive ParseError where
  /-- The text is no formula; the column is that of a token or of the end of the text. -/
  | malformed (column : Nat) (cause : Cause)
  /-- The text is a constant and nothing else. -/
  | notSymbolic
deriving DecidableEq, Repr

def ParseError.message : ParseError → String
  | .malformed column cause =>
    s!"invalid logical expression: {cause.message} (column {column})"
  | .notSymbolic => "expression evaluates to a boolean constant; provide symbolic variables"

namespace Reading

/-- Reads all the tokens as one formula. -/
def all (tokens : List Placed) : Except Problem Formula :=
  if tokens.isEmpty then .error (.atToken 1 .empty)
  else
    match formula.read ⟨tokens, 0⟩ with
    | .ok node c =>
      match c.rest with
      | [] => .ok node.formula
      | ⟨found, column⟩ :: _ => .error (.atToken column (.afterFormula found))
    | .error problem _ => .error problem

end Reading

namespace Formula

/-- The formula that the text is. The end of a text is the column after its last. -/
def parse (text : String) : Except ParseError Formula :=
  match scan text with
  | .error failure => .error (.malformed failure.column (.scan failure.cause))
  | .ok tokens =>
    match Reading.all tokens with
    | .error problem => .error (.malformed (problem.column.getD (text.length + 1)) problem.cause)
    | .ok formula => if formula.isConst then .error .notSymbolic else .ok formula

end Formula

end Propositional
