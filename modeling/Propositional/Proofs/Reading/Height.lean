import Propositional.Proofs.Reading.Completeness
import Propositional.Proofs.Reading.Routine

/-!
# The height that is kept with a tree

The height is counted up while a tree is put together, and never computed again. It is the height
of the tree nevertheless, for every tree that a routine returns, and no such tree is higher than
256. A call whose tree would be higher is refused, and the arguments tell which calls these are:
each of them is as many steps below the top as operations are put around it.

Results:
1. `lt_height_foldl_iff`: the height of a chain, by its operands.
2. `lt_height_applied_iff`: the height of the tree of a call, by its arguments.
3. `Node.apply_tooDeep_iff`, `Node.apply_tooDeep_iff_argument`: the calls that are refused for
   their height, by their trees and by their arguments.
4. `Routine.measured_exact`: the heights of all trees that are read or built.
-/

namespace Propositional

/-- How many operations are put around the argument at the position, counted from 0, in a call with
so many arguments. In a chain the first two arguments are in all of them, and each of the others is
in one less than the argument before. -/
def Operation.around (operation : Operation) (count position : Nat) : Nat :=
  match operation with
  | .not => 1
  | .binary _ => count - max position 1

/-- A chain is as high as its first operand below all the steps, or as another operand below the
step that joins it and all later ones. -/
theorem Formula.lt_height_foldl_iff {op : Connective} {limit : Nat} {a : Formula}
    {rest : List Formula} :
    limit < (rest.foldl (.binary op) a).height ↔
      limit < a.height + rest.length ∨
        ∃ (i : Nat) (b : Formula), rest[i]? = some b ∧ limit < b.height + (rest.length - i) := by
  induction rest generalizing a with
  | nil => simp
  | cons b rest ih =>
    have joined : limit < (Formula.binary op a b).height + rest.length ↔
        limit < a.height + (rest.length + 1) ∨ limit < b.height + (rest.length + 1) := by
      rw [height]
      omega
    have later (i : Nat) : rest.length + 1 - (i + 1) = rest.length - i := Nat.add_sub_add_right ..
    rw [List.foldl_cons, ih, joined, or_assoc, List.length_cons]
    refine or_congr_right ⟨?_, ?_⟩
    · rintro (first | ⟨i, c, there, high⟩)
      · exact ⟨0, b, rfl, first⟩
      · exact ⟨i + 1, c, there, (later i).symm ▸ high⟩
    · rintro ⟨_ | i, c, there, high⟩
      · cases there
        exact .inl high
      · exact .inr ⟨i, c, there, later i ▸ high⟩

/-- The tree of a call is as high as one of its arguments below the operations around it. -/
theorem Operation.lt_height_applied_iff {operation : Operation} {fs : List Formula} {f : Formula}
    (h : operation.applied fs = some f) {limit : Nat} :
    limit < f.height ↔
      ∃ (i : Nat) (a : Formula), fs[i]? = some a ∧
        limit < a.height + operation.around fs.length i := by
  rcases applied_some h with ⟨rfl, a, rfl, rfl⟩ | ⟨op, a, b, rest, rfl, rfl, rfl⟩
  · constructor
    · intro high
      exact ⟨0, a, rfl, high⟩
    · rintro ⟨_ | i, b, there, high⟩
      · cases there
        exact high
      · cases there
  · have later (i : Nat) :
        (binary op).around (a :: b :: rest).length (i + 1) = (b :: rest).length - i := by
      rw [around, Nat.max_eq_left (Nat.le_add_left 1 i), List.length_cons, Nat.add_sub_add_right]
    rw [Formula.lt_height_foldl_iff]
    constructor
    · rintro (high | ⟨i, c, there, high⟩)
      · exact ⟨0, a, rfl, high⟩
      · exact ⟨i + 1, c, there, (later i).symm ▸ high⟩
    · rintro ⟨_ | i, c, there, high⟩
      · cases there
        exact .inl high
      · exact .inr ⟨i, c, there, later i ▸ high⟩

theorem Operation.ne_nil_of_applied {operation : Operation} {fs : List Formula} {f : Formula}
    (h : operation.applied fs = some f) : fs ≠ [] := by
  rintro rfl
  cases operation <;> cases h

namespace Reading

/-! ## Calls that are too high -/

namespace Node

variable {operation : Operation} {column : Nat} {arguments : List Node}
  (all : ∀ argument ∈ arguments, argument.Measured)

include all

/-- A call is refused for its height if it has a tree, and that is too high. -/
theorem apply_tooDeep_iff :
    apply operation column arguments = .error (.atToken column .tooDeep) ↔
      ∃ f, operation.applied (arguments.map Node.formula) = some f ∧ depthLimit < f.height := by
  cases applied : operation.applied (arguments.map Node.formula) with
  | none => simp [apply_refused applied, Problem.atToken]
  | some f =>
    rw [← map_ofFormula all, apply_eq applied, built]
    split
    · rename_i low
      simp [Nat.not_lt.2 low]
    · rename_i high
      simpa using Nat.lt_of_not_le high

theorem lt_height_applied_iff_argument {f : Formula}
    (applied : operation.applied (arguments.map Node.formula) = some f) {limit : Nat} :
    limit < f.height ↔ ∃ (i : Nat) (argument : Node), arguments[i]? = some argument ∧
      limit < argument.height + operation.around arguments.length i := by
  rw [Operation.lt_height_applied_iff applied, List.length_map]
  constructor
  · rintro ⟨i, a, there, high⟩
    rw [List.getElem?_map, Option.map_eq_some_iff] at there
    obtain ⟨argument, there, rfl⟩ := there
    exact ⟨i, argument, there, (all argument (List.mem_of_getElem? there)).1 ▸ high⟩
  · rintro ⟨i, argument, there, high⟩
    refine ⟨i, argument.formula, ?_, (all argument (List.mem_of_getElem? there)).1 ▸ high⟩
    rw [List.getElem?_map, there, Option.map_some]

/-- The arguments tell whether the tree of the call is too high. -/
theorem apply_tooDeep_iff_argument :
    apply operation column arguments = .error (.atToken column .tooDeep) ↔
      operation.arity.admits arguments.length = true ∧
        ∃ (i : Nat) (argument : Node), arguments[i]? = some argument ∧
          depthLimit < argument.height + operation.around arguments.length i := by
  have admits (nonempty : arguments.map Node.formula ≠ []) :
      (operation.applied (arguments.map Node.formula)).isSome =
        operation.arity.admits arguments.length := by
    rw [Operation.isSome_applied nonempty, List.length_map]
  rw [apply_tooDeep_iff all]
  constructor
  · rintro ⟨f, applied, high⟩
    refine ⟨?_, (lt_height_applied_iff_argument all applied).1 high⟩
    rw [← admits (Operation.ne_nil_of_applied applied), applied]
    rfl
  · rintro ⟨admitted, i, argument, there, high⟩
    have nonempty : arguments.map Node.formula ≠ [] :=
      List.ne_nil_of_mem (List.mem_map_of_mem (List.mem_of_getElem? there))
    rw [← admits nonempty] at admitted
    obtain ⟨f, applied⟩ := Option.isSome_iff_exists.1 admitted
    exact ⟨f, applied, (lt_height_applied_iff_argument all applied).2 ⟨i, argument, there, high⟩⟩

end Node

/-! ## All trees -/

/-- Every tree that a routine returns, or that is built from such trees, is kept with its own
height, and is no higher than 256. A call is refused for its height if the tree of its arguments,
joined from the left, would be higher, and otherwise only for their number. -/
theorem Routine.measured_exact :
    (∀ (fuel : Nat) (r : Routine) (c c' : Cursor) (value : r.Value),
      r.read (insideOf fuel) c = .ok value c' →
        ∀ node ∈ r.nodes value, node.height = node.formula.height ∧ node.height ≤ 256) ∧
    (∀ (fuel : Nat) (name : Name) (column : Nat) (c c' : Cursor) (node : Node),
      named (Reading.equivalence (insideOf fuel)) name column c = .ok node c' →
        node.height = node.formula.height ∧ node.height ≤ 256) ∧
    (∀ (column : Nat) (inner node : Node), inner.Measured →
      Node.negate column inner = .ok node →
        node.formula = .not inner.formula ∧
          node.height = node.formula.height ∧ node.height ≤ 256) ∧
    (∀ (op : Connective) (column : Nat) (left right node : Node), left.Measured → right.Measured →
      Node.join op column left right = .ok node →
        node.formula = .binary op left.formula right.formula ∧
          node.height = node.formula.height ∧ node.height ≤ 256) ∧
    ∀ (operation : Operation) (column : Nat) (arguments : List Node),
      (∀ argument ∈ arguments, argument.Measured) →
        (∀ node, Node.apply operation column arguments = .ok node →
          operation.applied (arguments.map Node.formula) = some node.formula ∧
            node.height = node.formula.height ∧ node.height ≤ 256) ∧
        (Node.apply operation column arguments = .error (.atToken column .tooDeep) ↔
          ∃ f, operation.applied (arguments.map Node.formula) = some f ∧ 256 < f.height) ∧
        (Node.apply operation column arguments = .error (.atToken column .tooDeep) ↔
          operation.arity.admits arguments.length = true ∧
            ∃ (i : Nat) (argument : Node), arguments[i]? = some argument ∧
              256 < argument.height + operation.around arguments.length i) ∧
        ∀ f, operation.applied (arguments.map Node.formula) = some f → f.height ≤ 256 →
          Node.apply operation column arguments = .ok ⟨f, f.height⟩ := by
  refine ⟨fun fuel r c c' value read => ?_, fun fuel name column c c' node read => ?_,
    fun _ _ _ measured built => Node.negate_ok measured built,
    fun _ _ _ _ _ measured measured' built => Node.join_ok measured measured' built,
    fun operation column arguments all => ⟨fun node built => Node.apply_ok all built,
      Node.apply_tooDeep_iff all, Node.apply_tooDeep_iff_argument all,
      fun f applied low => ?_⟩⟩
  · have ends := r.keeps_read (keeps_insideOf fuel) c
    rw [read] at ends
    exact ends.1
  · have ends := keeps_named (keeps_insideOf fuel).equivalence name column c
    rw [read] at ends
    exact ends.1
  · rw [← Node.map_ofFormula all, Node.apply_eq applied]
    exact if_pos low

/-- The order of the arguments counts: only the last one is joined in one step. -/
theorem Routine.measured_exact_order :
    let low : Node := .leaf (.const false)
    let high : Node := ⟨Nat.repeat Formula.not 255 (.const false), 255⟩
    Node.apply (.binary .and) 7 [high, low, low] = .error (.atToken 7 .tooDeep) ∧
      ∃ f, Node.apply (.binary .and) 7 [low, low, high] = .ok ⟨f, f.height⟩ := by
  intro low high
  have measured : low.Measured := ⟨rfl, Nat.zero_le _⟩
  have measured' : high.Measured := ⟨by decide +kernel, by decide⟩
  constructor
  · exact (measured_exact.2.2.2.2 (.binary .and) 7 [high, low, low]
      (by simp [measured, measured'])).2.2.1.2 ⟨rfl, 0, high, rfl, by decide⟩
  · refine ⟨_, (measured_exact.2.2.2.2 (.binary .and) 7 [low, low, high]
      (by simp [measured, measured'])).2.2.2 _ rfl ?_⟩
    decide +kernel

end Reading

end Propositional
