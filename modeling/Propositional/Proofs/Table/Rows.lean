import Propositional.Proofs.Assignment.Lookup
import Propositional.Proofs.Enumeration.Items
import Propositional.Proofs.Evaluation
import Propositional.Table

/-!
# The rows of a table

A table that is built has one row for every number below `2 ^ N`. The inputs of a row are the
binary digits of its number, and its output is the value of the formula under the bindings of
the variables to the inputs.

Results:
1. `isSome_eval_valuation`, `eval_row`, `inputs_rowAt`: the output and the inputs of one row.
2. `build_eq`, `build_eq_ok`: the one table that a formula can have, and when it has it.
3. `build_correct`: the variables, the rows and the models of a table.
-/

namespace Propositional

/-- The default limits on a machine that has room for every table. -/
def Limits.roomy : Limits := { fits := fun _ => true }

namespace Table

/-- An assignment of the variables leaves no formula without a value. -/
theorem isSome_eval_valuation {f : Formula} {a : Assignment} (same : a.names.toList = f.names) :
    (f.eval a.valuation).isSome := by
  have ascending : Name.Ascending a.names.toList := same ▸ f.ascending_names
  refine Formula.isSome_eval.2 fun name mem => Assignment.isSome_valuation ascending ?_
  rw [same]
  exact Formula.mem_names.2 mem

/-- The output of a row is the value under the bindings of the variables to its inputs. -/
theorem eval_row {f : Formula} {a : Assignment} (same : a.names.toList = f.names) :
    f.eval (.ofHashMap (Valuation.binding f.names (row f a).inputs)) = some (row f a).output := by
  have ascending : Name.Ascending a.names.toList := same ▸ f.ascending_names
  -- the row has the value of the formula, and not the one it would have without
  obtain ⟨value, found⟩ := Option.isSome_iff_exists.1 (isSome_eval_valuation same)
  have output : (row f a).output = value := by
    rw [row, found, Option.getD_some]
  rw [output, ← found, Assignment.valuation_eq_ofHashMap ascending, same]
  rfl

/-- The row with the given number. -/
def rowAt (f : Formula) (fits : f.names.toArray.size ≤ nameLimit) (number : Nat) : Row :=
  row f ⟨f.names.toArray, .ofNat number, fits⟩

/-- The inputs are the binary digits of the number, the most significant one first. -/
theorem inputs_rowAt {f : Formula} (fits : f.names.toArray.size ≤ nameLimit) {number : Nat}
    (below : number < 2 ^ f.names.length) :
    (rowAt f fits number).inputs =
      (List.range f.names.length).map fun j => number.testBit (f.names.length - 1 - j) := by
  have whole : (UInt64.ofNat number).toNat = number :=
    Enumeration.toNat_ofNat_of_le fits (Nat.le_of_lt below)
  rw [rowAt, row, Assignment.values_eq_digits, Assignment.digits_eq_map, whole]
  rfl

/-- All rows of a formula, by their numbers. -/
def rowsOf (f : Formula) (fits : f.names.toArray.size ≤ nameLimit) : List Row :=
  (List.range (2 ^ f.names.length)).map (rowAt f fits)

theorem map_row_all (f : Formula) (fits : f.names.toArray.size ≤ nameLimit) :
    (Enumeration.all f.names.toArray fits).toList.map (row f) = rowsOf f fits := by
  rw [Enumeration.toList_all fits, List.map_map]
  rfl

/-- The whole table of a formula. No limit has a part in it. -/
def whole (f : Formula) (fits : f.names.toArray.size ≤ nameLimit) : Table where
  names := f.names
  formula := f.text
  rows := rowsOf f fits
  verdict := .ofResults ((rowsOf f fits).map Row.output)

/-- The answer to a formula, by the number of its variables. -/
theorem build_eq (limits : Limits) (f : Formula) :
    build limits f =
      if f.names.length = 0 then .error .noVariables
      else if allowed : f.names.length ≤ limits.allowed then
        if limits.fits f.names.length then .ok (whole f (Nat.le_trans allowed limits.allowed_le))
        else .error (.tooLarge f.names.length)
      else .error (.tooManyVariables f.names.length limits.allowed) := by
  simp only [build, List.size_toArray, map_row_all]
  rfl

/-- There is no table but the whole one. -/
theorem build_eq_ok {limits : Limits} {f : Formula} {t : Table} (h : build limits f = .ok t) :
    f.names ≠ [] ∧ ∃ fits, t = whole f fits := by
  rw [build_eq] at h
  split at h
  · cases h
  rename_i positive
  split at h
  · rename_i allowed
    split at h
    · cases h
      exact ⟨fun empty => positive (by rw [empty]; rfl), _, rfl⟩
    · cases h
  · cases h

/-- What a table is built of. -/
theorem build_ok {limits : Limits} {f : Formula} {t : Table} (h : build limits f = .ok t) :
    ∃ fits : f.names.toArray.size ≤ nameLimit, f.names ≠ [] ∧ t.names = f.names ∧
      t.rows = (List.range (2 ^ f.names.length)).map (rowAt f fits) := by
  obtain ⟨nonempty, fits, rfl⟩ := build_eq_ok h
  exact ⟨fits, nonempty, rfl, rfl⟩

/-- Each row of a table, by its number. -/
theorem getElem?_rows {limits : Limits} {f : Formula} {t : Table} (h : build limits f = .ok t)
    {i : Nat} {found : Row} (there : t.rows[i]? = some found) :
    i < 2 ^ t.names.length ∧ ∃ fits, found = rowAt f fits i := by
  obtain ⟨fits, -, names, rows⟩ := build_ok h
  rw [rows, List.getElem?_map, Option.map_eq_some_iff] at there
  obtain ⟨number, place, rfl⟩ := there
  obtain ⟨below, same⟩ := List.getElem?_eq_some_iff.1 place
  rw [List.getElem_range] at same
  subst same
  rw [List.length_range] at below
  exact ⟨names ▸ below, fits, rfl⟩

/-- The output of every row is the value of the formula under its inputs. -/
theorem eval_of_mem_rows {limits : Limits} {f : Formula} {t : Table} (h : build limits f = .ok t)
    {found : Row} (mem : found ∈ t.rows) :
    f.eval (.ofHashMap (Valuation.binding t.names found.inputs)) = some found.output := by
  obtain ⟨i, there⟩ := List.mem_iff_getElem?.1 mem
  obtain ⟨-, fits, rfl⟩ := getElem?_rows h there
  obtain ⟨-, -, names, -⟩ := build_ok h
  rw [names]
  exact eval_row rfl

/-- The variables are those of the formula in the order of their code points; the rows count
up in binary; the output of a row is the value of the formula under its inputs; and the
models are the rows that satisfy the formula, in their order. -/
theorem build_correct {limits : Limits} {f : Formula} {t : Table} (h : build limits f = .ok t) :
    (∀ name : Name, name ∈ t.names ↔ name ∈ f.occurrences) ∧
      t.names.Pairwise (fun a b => a.codePoints < b.codePoints) ∧
      1 ≤ t.names.length ∧ t.rows.length = 2 ^ t.names.length ∧
      (∀ (i : Nat) (row : Row), t.rows[i]? = some row →
        row.inputs.length = t.names.length ∧
        (∀ j < t.names.length,
          row.inputs[j]? = some (i.testBit (t.names.length - 1 - j))) ∧
        f.eval (.ofHashMap (Valuation.binding t.names row.inputs)) = some row.output) ∧
      t.models = t.rows.filter fun row : Row =>
        f.eval (.ofHashMap (Valuation.binding t.names row.inputs)) = some true := by
  obtain ⟨_, nonempty, names, rows⟩ := build_ok h
  refine ⟨fun name => ?_, ?_, ?_, ?_, fun i row there => ?_, ?_⟩
  · rw [names, Formula.mem_names]
  · rw [names]
    exact f.ascending_names.imp Name.codePoints_lt
  · rw [names]
    exact List.length_pos_iff.2 nonempty
  · rw [rows, names, List.length_map, List.length_range]
  · have value := eval_of_mem_rows h (List.mem_of_getElem? there)
    obtain ⟨below, fits, rfl⟩ := getElem?_rows h there
    rw [names] at below value ⊢
    refine ⟨?_, fun j inside => ?_, value⟩
    · rw [inputs_rowAt fits below, List.length_map, List.length_range]
    · rw [inputs_rowAt fits below, List.getElem?_map, List.getElem?_range inside]
      rfl
  · refine List.filter_congr fun row mem => ?_
    rw [eval_of_mem_rows h mem]
    simp

/-- The table of `B >> A` has the variables `A` and `B`, and four rows. -/
theorem build_correct_implication :
    ∃ t, build .roomy (.binary .implies (.var ⟨"B", by decide⟩) (.var ⟨"A", by decide⟩)) = .ok t ∧
      t.names.map Name.text = ["A", "B"] ∧ t.rows.length = 4 := by
  obtain ⟨t, built⟩ : ∃ t, build .roomy (.binary .implies (.var ⟨"B", by decide⟩)
      (.var ⟨"A", by decide⟩)) = .ok t := ⟨_, rfl⟩
  obtain ⟨-, -, names, -⟩ := build_ok built
  have two : t.names.map Name.text = ["A", "B"] := by
    rw [names]
    decide
  refine ⟨t, built, two, ?_⟩
  rw [(build_correct built).2.2.2.1, ← List.length_map Name.text, two]
  rfl

end Table

end Propositional
