import Propositional.Enumeration
import Propositional.Formula.Infix
import Propositional.Verdict

/-!
# Truth tables

The table of a formula has one column for each of its variables, in ascending order, one
for the formula, and one row for each assignment, in the order of the enumeration.
`Table.build` refuses a formula without variables, one with more variables than allowed,
and one whose rows do not fit in memory, in this order.
-/

namespace Propositional

/-- The values of the variables and the value of the formula under them. -/
structure Row where
  inputs : List Bool
  output : Bool
deriving DecidableEq, Repr

/-- The cells of the row. -/
def Row.cells (row : Row) : List Bool := row.inputs ++ [row.output]

structure Table where
  names : List Name
  /-- The infix form of the formula. -/
  formula : String
  rows : List Row
  verdict : Verdict
deriving DecidableEq, Repr

inductive BuildError where
  | noVariables
  | tooManyVariables (found limit : Nat)
  | tooLarge (count : Nat)
deriving DecidableEq, Repr

def BuildError.message : BuildError → String
  | .noVariables => "no variables found in the expression; use symbols like A, B, C"
  | .tooManyVariables found limit =>
    s!"expression has {found} variables, at most {limit} are allowed"
  | .tooLarge count => s!"truth table over {count} variables does not fit in memory"

/-- How large a table may be. -/
structure Limits where
  /-- The largest number of variables; without one, only `nameLimit` holds. By default a
  table has about a million rows at most. -/
  maxVariables : Option Nat := some 20
  /-- Whether the memory of the machine has room for the rows over so many variables. -/
  fits : Nat → Bool

/-- The number of variables that is allowed. -/
def Limits.allowed (limits : Limits) : Nat :=
  match limits.maxVariables with
  | some limit => min limit nameLimit
  | none => nameLimit

theorem Limits.allowed_le (limits : Limits) : limits.allowed ≤ nameLimit := by
  unfold Limits.allowed
  split
  · exact Nat.min_le_right _ _
  · exact Nat.le_refl _

namespace Table

/-- The column titles. -/
def header (t : Table) : List String := t.names.map Name.text ++ [t.formula]

/-- The rows in which the formula is true. -/
def models (t : Table) : List Row := t.rows.filter Row.output

/-- The row of an assignment. An assignment of all variables leaves no formula without a
value, so the default never shows. -/
def row (f : Formula) (a : Assignment) : Row := ⟨a.values, (f.eval a.valuation).getD false⟩

/-- The table of the formula. -/
def build (limits : Limits) (f : Formula) : Except BuildError Table :=
  let names := f.names.toArray
  if names.size = 0 then .error .noVariables
  else if h : names.size ≤ limits.allowed then
    if limits.fits names.size then
      let assignments := (Enumeration.all names (Nat.le_trans h limits.allowed_le)).toList
      let rows := assignments.map (row f)
      .ok ⟨f.names, f.text, rows, .ofResults (rows.map Row.output)⟩
    else .error (.tooLarge names.size)
  else .error (.tooManyVariables names.size limits.allowed)

end Table

end Propositional
