import Propositional.Connective
import Propositional.Name

/-!
# Formulas

The tree of a propositional formula, its size, and the names that occur in it.
-/

namespace Propositional

/-- A propositional formula. -/
inductive Formula where
  | const (value : Bool)
  | var (name : Name)
  | not (inner : Formula)
  | binary (op : Connective) (left right : Formula)
deriving DecidableEq, Repr

namespace Formula

/-- Whether the formula is a constant and nothing else. -/
def isConst : Formula → Bool
  | .const _ => true
  | _ => false

/-- The number of nodes of the tree. -/
def size : Formula → Nat
  | .const _ | .var _ => 1
  | .not a => 1 + a.size
  | .binary _ a b => 1 + a.size + b.size

/-- The names in the order in which they stand in the formula, as often as they do. -/
def occurrences : Formula → List Name
  | .const _ => []
  | .var name => [name]
  | .not a => a.occurrences
  | .binary _ a b => a.occurrences ++ b.occurrences

/-- The variables of the formula: ascending, each once. -/
def names (f : Formula) : List Name := Name.sorted f.occurrences

end Formula

end Propositional
