import Propositional.Formula

/-!
# Operations by name

Negation and the connectives can also be written as functions: `Not(A)`, `And(A, B, C)`.
Such a name stands for its function only and is no variable.
-/

namespace Propositional

/-- The operations that have a name. -/
inductive Operation where
  | not
  | binary (op : Connective)
deriving DecidableEq, Repr

/-- How many arguments a function takes. -/
inductive Arity where
  | exactly (count : Nat)
  | atLeast (count : Nat)
deriving DecidableEq, Repr

namespace Arity

def admits : Arity → Nat → Bool
  | .exactly count, found => found = count
  | .atLeast count, found => count ≤ found

def text : Arity → String
  | .exactly count => s!"exactly {count}"
  | .atLeast count => s!"at least {count}"

end Arity

namespace Operation

/-- The operation that a name stands for. The biconditional has a short and a long name. -/
def ofName? : String → Option Operation
  | "Not" => some .not
  | "And" => some (.binary .and)
  | "Or" => some (.binary .or)
  | "Xor" => some (.binary .xor)
  | "Implies" => some (.binary .implies)
  | "Eq" => some (.binary .equiv)
  | "Equivalent" => some (.binary .equiv)
  | _ => none

/-- The name that messages use. -/
def name : Operation → String
  | .not => "Not"
  | .binary .and => "And"
  | .binary .or => "Or"
  | .binary .xor => "Xor"
  | .binary .implies => "Implies"
  | .binary .equiv => "Eq"

/-- Chains of `And`, `Or` and `Xor` may have any length from two on. -/
def arity : Operation → Arity
  | .not => .exactly 1
  | .binary .implies | .binary .equiv => .exactly 2
  | .binary .and | .binary .or | .binary .xor => .atLeast 2

end Operation

end Propositional
