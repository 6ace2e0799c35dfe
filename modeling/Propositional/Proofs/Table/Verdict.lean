import Mathlib.Data.Nat.Init
import Propositional.Proofs.Table.Rows

/-!
# What the verdict of a table says

A table goes through finitely many valuations, and its verdict speaks about all of them: the
value of a formula depends on its variables only, and every choice of their values is the
inputs of some row.

Results:
1. `Verdict.ofResults_eq`: one pass over the results finds out which of the two occur.
2. `mem_outputs_iff`: the outputs of a table are the values of its formula under all
   valuations that bind its variables.
3. `verdict_iff`: the verdict decides whether a formula is valid, unsatisfiable, or neither.
-/

namespace Propositional

namespace Verdict

/-- The pass keeps what it has seen, and adds what is still to come. -/
theorem foldl_seen (results : List Bool) (anyTrue anyFalse : Bool) :
    results.foldl (fun (anyTrue, anyFalse) result => (anyTrue || result, anyFalse || !result))
        (anyTrue, anyFalse) =
      (anyTrue || results.contains true, anyFalse || results.contains false) := by
  induction results generalizing anyTrue anyFalse with
  | nil => simp
  | cons result results ih =>
    rw [List.foldl_cons, ih]
    cases result <;> simp

theorem ofResults_eq (results : List Bool) :
    ofResults results =
      if false ∉ results then .tautology
      else if true ∉ results then .contradiction
      else .contingency := by
  simp only [ofResults, foldl_seen, Bool.false_or]
  cases anyTrue : results.contains true <;> cases anyFalse : results.contains false <;>
    simp_all

end Verdict

namespace Table

/-! ## Every valuation has its row -/

/-- Any values of the variables are the inputs of a row. -/
theorem exists_inputs_eq {f : Formula} (fits : f.names.toArray.size ≤ nameLimit)
    (value : Name → Bool) :
    ∃ number < 2 ^ f.names.length, (rowAt f fits number).inputs = f.names.map value := by
  -- the digit at a place, counted from the least significant one, is the value of its name
  let digit (i : Fin f.names.length) : Bool := value (f.names[f.names.length - 1 - i.val])
  have below : Nat.ofBits digit < 2 ^ f.names.length := Nat.ofBits_lt_two_pow digit
  refine ⟨Nat.ofBits digit, below, ?_⟩
  rw [inputs_rowAt fits below]
  refine List.ext_getElem (by simp) fun j inside inside' => ?_
  have place : j < f.names.length := by simpa using inside'
  have mirrored : f.names.length - 1 - (f.names.length - 1 - j) = j := by omega
  rw [List.getElem_map, List.getElem_range, List.getElem_map,
    Nat.testBit_ofBits_lt digit _ (by omega)]
  simp only [digit, mirrored]

/-- For a valuation that binds the variables there is a row with the same values of them. -/
theorem exists_row_agrees {limits : Limits} {f : Formula} {t : Table}
    (h : build limits f = .ok t) {v : Valuation} (binds : v.Binds f) :
    ∃ row ∈ t.rows, ∀ name ∈ f.occurrences,
      Valuation.ofHashMap (Valuation.binding t.names row.inputs) name.text = v name.text := by
  obtain ⟨fits, -, names, rows⟩ := build_ok h
  obtain ⟨number, below, inputs⟩ :=
    exists_inputs_eq fits fun name => (v name.text).getD false
  have mem : rowAt f fits number ∈ t.rows := by
    rw [rows]
    exact List.mem_map_of_mem (List.mem_range.2 below)
  refine ⟨rowAt f fits number, mem, fun name occurs => ?_⟩
  rw [names, inputs]
  -- the bindings of the row are those of the valuation
  obtain ⟨value, bound⟩ := Option.isSome_iff_exists.1 (binds name occurs)
  obtain ⟨j, there⟩ := List.mem_iff_getElem?.1 (Formula.mem_names.2 occurs)
  have valued : (f.names.map fun name => (v name.text).getD false)[j]? = some value := by
    rw [List.getElem?_map, there, Option.map_some, bound, Option.getD_some]
  rw [bound, Valuation.ofHashMap]
  exact Valuation.getElem?_binding f.ascending_names (by simp) there valued

/-- A valuation that binds the variables gives the formula the output of some row. -/
theorem exists_row_of_binds {limits : Limits} {f : Formula} {t : Table}
    (h : build limits f = .ok t) {v : Valuation} (binds : v.Binds f) :
    ∃ row ∈ t.rows, f.eval v = some row.output := by
  obtain ⟨row, mem, agrees⟩ := exists_row_agrees h binds
  exact ⟨row, mem, (Formula.eval_congr agrees).symm.trans (eval_of_mem_rows h mem)⟩

/-- The inputs of a row bind the variables. -/
theorem binds_of_mem_rows {limits : Limits} {f : Formula} {t : Table}
    (h : build limits f = .ok t) {row : Row} (mem : row ∈ t.rows) :
    (Valuation.ofHashMap (Valuation.binding t.names row.inputs)).Binds f := by
  refine Formula.isSome_eval.1 ?_
  rw [eval_of_mem_rows h mem]
  rfl

/-- A table finds each value that its formula can have, and no other. -/
theorem mem_outputs_iff {limits : Limits} {f : Formula} {t : Table} (h : build limits f = .ok t)
    {value : Bool} :
    value ∈ t.rows.map Row.output ↔ ∃ v : Valuation, v.Binds f ∧ f.eval v = some value := by
  rw [List.mem_map]
  constructor
  · rintro ⟨row, mem, rfl⟩
    exact ⟨_, binds_of_mem_rows h mem, eval_of_mem_rows h mem⟩
  · rintro ⟨v, binds, found⟩
    obtain ⟨row, mem, output⟩ := exists_row_of_binds h binds
    exact ⟨row, mem, Option.some.inj (output.symm.trans found)⟩

/-! ## The verdict -/

theorem verdict_eq {limits : Limits} {f : Formula} {t : Table} (h : build limits f = .ok t) :
    t.verdict = .ofResults (t.rows.map Row.output) := by
  obtain ⟨-, fits, rfl⟩ := build_eq_ok h
  rfl

/-- Under a valuation that binds all variables, a formula has one of two values. -/
theorem eval_ne_iff {f : Formula} {v : Valuation} (binds : v.Binds f) (value : Bool) :
    f.eval v ≠ some value ↔ f.eval v = some (!value) := by
  obtain ⟨found, valued⟩ := Option.isSome_iff_exists.1 (Formula.isSome_eval.2 binds)
  rw [valued]
  cases found <;> cases value <;> decide

/-- A value is no output exactly if every valuation gives the formula the other value. -/
theorem not_mem_outputs_iff {limits : Limits} {f : Formula} {t : Table}
    (h : build limits f = .ok t) {value : Bool} :
    value ∉ t.rows.map Row.output ↔ ∀ v : Valuation, v.Binds f → f.eval v = some (!value) := by
  rw [mem_outputs_iff h]
  simp only [not_exists, not_and]
  exact forall₂_congr fun v binds => eval_ne_iff binds value

/-- The verdict decides validity: over all valuations that bind the variables of the formula,
and not only over the rows. -/
theorem verdict_iff {limits : Limits} {f : Formula} {t : Table} (h : build limits f = .ok t) :
    (t.verdict = .tautology ↔ ∀ v : Valuation, v.Binds f → f.eval v = some true) ∧
      (t.verdict = .contradiction ↔ ∀ v : Valuation, v.Binds f → f.eval v = some false) ∧
      (t.verdict = .contingency ↔
        (∃ v : Valuation, v.Binds f ∧ f.eval v = some true) ∧
          ∃ v : Valuation, v.Binds f ∧ f.eval v = some false) := by
  have never (value : Bool) := @not_mem_outputs_iff _ _ _ h value
  have once (value : Bool) := @mem_outputs_iff _ _ _ h value
  -- there is a valuation of each kind in some row, so the two universal cases exclude each other
  obtain ⟨output, first⟩ : ∃ output, output ∈ t.rows.map Row.output := by
    obtain ⟨row, mem, -⟩ := exists_row_of_binds h (v := fun _ => some true) fun _ _ => rfl
    exact ⟨row.output, List.mem_map_of_mem mem⟩
  have either : true ∈ t.rows.map Row.output ∨ false ∈ t.rows.map Row.output := by
    cases output
    · exact .inr first
    · exact .inl first
  rw [← once true, ← once false, ← Bool.not_false, ← never false, ← Bool.not_true, ← never true,
    verdict_eq h, Verdict.ofResults_eq]
  by_cases anyTrue : true ∈ t.rows.map Row.output <;>
    by_cases anyFalse : false ∈ t.rows.map Row.output <;> simp_all

/-- `A >> B == ~B >> ~A` is true under every valuation of `A` and `B`, and its table says so. -/
theorem verdict_iff_contraposition :
    ∃ t, build .roomy (.binary .equiv
          (.binary .implies (.var ⟨"A", by decide⟩) (.var ⟨"B", by decide⟩))
          (.binary .implies (.not (.var ⟨"B", by decide⟩)) (.not (.var ⟨"A", by decide⟩)))) =
        .ok t ∧ t.verdict = .tautology := by
  obtain ⟨t, built⟩ : ∃ t, build .roomy (.binary .equiv
      (.binary .implies (.var ⟨"A", by decide⟩) (.var ⟨"B", by decide⟩))
      (.binary .implies (.not (.var ⟨"B", by decide⟩)) (.not (.var ⟨"A", by decide⟩)))) =
        .ok t := ⟨_, rfl⟩
  refine ⟨t, built, (verdict_iff built).1.2 fun v binds => ?_⟩
  obtain ⟨a, boundA⟩ := Option.isSome_iff_exists.1 (binds ⟨"A", by decide⟩ (by decide))
  obtain ⟨b, boundB⟩ := Option.isSome_iff_exists.1 (binds ⟨"B", by decide⟩ (by decide))
  simp only [Formula.eval, boundA, boundB]
  cases a <;> cases b <;> rfl

end Table

end Propositional
