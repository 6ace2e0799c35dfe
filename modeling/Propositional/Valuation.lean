import Std.Data.HashMap
import Std.Data.TreeMap
import Propositional.Formula

/-!
# Valuations and the value of a formula

A valuation gives some names a truth value. A formula has a value under it as soon as all
of its variables have one; a variable without a value leaves the formula without one, even
where the other operand would decide.
-/

namespace Propositional

/-- The truth values of names, as far as they are known. -/
abbrev Valuation := String → Option Bool

namespace Valuation

/-- The values in a table that is looked up by text. -/
def ofHashMap (values : Std.HashMap String Bool) : Valuation := fun text => values[text]?

/-- The values in a table that is ordered by name. No entry has the empty text. -/
def ofTreeMap (values : Std.TreeMap Name Bool) : Valuation := fun text =>
  (Name.ofString? text).bind fun name => values[name]?

end Valuation

namespace Formula

/-- The value of the formula, if all of its variables have one. -/
def eval (valuation : Valuation) : Formula → Option Bool
  | .const value => some value
  | .var name => valuation name.text
  | .not a => do
    let value ← a.eval valuation
    return !value
  | .binary op a b => do
    let left ← a.eval valuation
    let right ← b.eval valuation
    return op.apply left right

end Formula

end Propositional
