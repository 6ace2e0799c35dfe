import Propositional.Reading.Problem

/-!
# Subtrees of bounded height

While a formula is read, each subtree is kept with its height, and no tree above the
limit is built: the operation that would be too high is the problem.
-/

namespace Propositional.Reading

/-- The largest height of a tree, and the largest number of constructs that may be open at
once: parentheses, calls, negations and right sides of `>>`. -/
def depthLimit : Nat := 256

/-- A formula and the height of its tree; a tree of one node has height 0. -/
structure Node where
  formula : Formula
  height : Nat
deriving DecidableEq, Repr

namespace Node

def leaf (formula : Formula) : Node := ⟨formula, 0⟩

/-- The height of a tree over subtrees of the given height, for the operation at `column`. -/
def grow (column height : Nat) : Except Problem Nat :=
  if height < depthLimit then .ok (height + 1) else .error (.atToken column .tooDeep)

def negate (column : Nat) (inner : Node) : Except Problem Node :=
  (grow column inner.height).map (⟨.not inner.formula, ·⟩)

def join (op : Connective) (column : Nat) (left right : Node) : Except Problem Node :=
  (grow column (max left.height right.height)).map (⟨.binary op left.formula right.formula, ·⟩)

/-- The operation at `column` applied to its arguments. More than two arguments are joined
from the left, one level of the tree for each. -/
def apply (operation : Operation) (column : Nat) (arguments : List Node) : Except Problem Node :=
  match operation, arguments with
  | .not, [inner] => negate column inner
  | .binary op, first :: rest =>
    if operation.arity.admits arguments.length then rest.foldlM (join op column) first
    else .error (.atToken column (.wrongArity operation arguments.length))
  | _, _ => .error (.atToken column (.wrongArity operation arguments.length))

end Node

end Propositional.Reading
