import Propositional.Proofs.Table.Verdict

/-!
# Tables and logical equivalence

The rows of a table are a function of the meaning of its formula: neither the shape of the
formula nor the order of its variables has a part in them. So two formulas with the same
variables have the same rows exactly if they are logically equivalent.

Results:
1. `eval_eq_of_rows_eq`, `rows_eq_of_eval_eq`: from the rows to all valuations, and back.
2. `verdict_equiv_iff`: the verdict on a biconditional compares its two sides.
3. `same_rows_iff`: the columns and rows of two tables decide whether the formulas are
   equivalent, as the verdict on their biconditional does.
-/

namespace Propositional

namespace Formula

/-- Formulas with the same variables have them in the same columns. -/
theorem names_eq_iff {f g : Formula} :
    f.names = g.names ↔ ∀ name, name ∈ f.occurrences ↔ name ∈ g.occurrences :=
  Name.sorted_eq_iff

/-- The formulas have the same variables, and the same value wherever these have one. -/
def Equivalent (f g : Formula) : Prop :=
  (∀ name, name ∈ f.occurrences ↔ name ∈ g.occurrences) ∧
    ∀ v : Valuation, v.Binds f → f.eval v = g.eval v

end Formula

namespace Table

variable {limits limits' : Limits} {f g : Formula} {t t' : Table}

/-! ## From the rows to the valuations -/

theorem eval_eq_of_rows_eq (built : build limits f = .ok t) (built' : build limits' g = .ok t')
    (names : t.names = t'.names) (rows : t.rows = t'.rows) {v : Valuation}
    (binds : v.Binds f) : f.eval v = g.eval v := by
  obtain ⟨row, mem, agrees⟩ := exists_row_agrees built binds
  obtain ⟨-, -, columns, -⟩ := build_ok built
  obtain ⟨-, -, columns', -⟩ := build_ok built'
  have same := Formula.names_eq_iff.1 (columns.symm.trans (names.trans columns'))
  have there : row ∈ t'.rows := rows ▸ mem
  -- the row has the values that `v` has, for the variables of both formulas
  calc f.eval v = f.eval (.ofHashMap (Valuation.binding t.names row.inputs)) :=
        (Formula.eval_congr agrees).symm
    _ = some row.output := eval_of_mem_rows built mem
    _ = g.eval (.ofHashMap (Valuation.binding t'.names row.inputs)) :=
        (eval_of_mem_rows built' there).symm
    _ = g.eval v := by
        rw [← names]
        exact Formula.eval_congr fun name occurs => agrees name ((same name).2 occurs)

/-! ## From the valuations to the rows -/

/-- The row of an assignment of the variables, for formulas with the same values. -/
theorem row_congr {a : Assignment} (same : a.names.toList = f.names)
    (equal : ∀ v : Valuation, v.Binds f → f.eval v = g.eval v) : row f a = row g a := by
  rw [row, row, equal a.valuation (Formula.isSome_eval.1 (isSome_eval_valuation same))]

theorem rows_eq_of_eval_eq (built : build limits f = .ok t) (built' : build limits' g = .ok t')
    (names : f.names = g.names) (equal : ∀ v : Valuation, v.Binds f → f.eval v = g.eval v) :
    t.rows = t'.rows := by
  obtain ⟨fits, -, -, rows⟩ := build_ok built
  obtain ⟨fits', -, -, rows'⟩ := build_ok built'
  rw [rows, rows', names]
  refine List.map_congr_left fun number _ => ?_
  have assignments : (⟨f.names.toArray, .ofNat number, fits⟩ : Assignment) =
      ⟨g.names.toArray, .ofNat number, fits'⟩ := by
    simp only [names]
  rw [rowAt, rowAt, ← assignments]
  exact row_congr rfl equal

theorem rows_eq_iff_equivalent (built : build limits f = .ok t)
    (built' : build limits' g = .ok t') :
    t.names = t'.names ∧ t.rows = t'.rows ↔ f.Equivalent g := by
  obtain ⟨-, -, columns, -⟩ := build_ok built
  obtain ⟨-, -, columns', -⟩ := build_ok built'
  rw [columns, columns', Formula.names_eq_iff, Formula.Equivalent]
  refine and_congr_right fun same => ?_
  have names := Formula.names_eq_iff.2 same
  constructor
  · intro rows v binds
    exact eval_eq_of_rows_eq built built' (columns.trans (names.trans columns'.symm)) rows binds
  · exact rows_eq_of_eval_eq built built' names

/-! ## Biconditionals -/

theorem verdict_eq_tautology_iff (built : build limits f = .ok t) :
    t.verdict = .tautology ↔ ∀ v : Valuation, v.Binds f → f.eval v = some true := by
  rw [← Bool.not_false, ← not_mem_outputs_iff built, verdict_eq built, Verdict.ofResults_eq]
  split
  · simp [*]
  · split <;> simp_all

/-- A biconditional is true where its sides have the same value. -/
theorem eval_equiv_iff {v : Valuation} (binds : v.Binds f) :
    (Formula.binary .equiv f g).eval v = some true ↔ f.eval v = g.eval v := by
  obtain ⟨value, valued⟩ := Option.isSome_iff_exists.1 (Formula.isSome_eval.2 binds)
  rw [Formula.eval, valued]
  cases g.eval v <;> simp [Connective.apply]

theorem verdict_equiv_iff {u : Table} (built : build limits (.binary .equiv f g) = .ok u)
    (same : ∀ name, name ∈ f.occurrences ↔ name ∈ g.occurrences) :
    u.verdict = .tautology ↔ f.Equivalent g := by
  rw [verdict_eq_tautology_iff built, Formula.Equivalent, and_iff_right same]
  -- the biconditional has no variables but those of its left side
  have binds (v : Valuation) : v.Binds (.binary .equiv f g) ↔ v.Binds f := by
    simp [Valuation.Binds, Formula.occurrences, ← same]
  refine forall_congr' fun v => ?_
  rw [binds]
  exact forall_congr' eval_equiv_iff

/-- Two tables have the same variables and the same rows exactly if their formulas have the same
variables and the same value under every valuation that binds these. For formulas with the same
variables this is what the table of their biconditional says: it is a tautology. -/
theorem same_rows_iff (built : build limits f = .ok t) (built' : build limits' g = .ok t') :
    (t.names = t'.names ∧ t.rows = t'.rows ↔
      (∀ name, name ∈ f.occurrences ↔ name ∈ g.occurrences) ∧
        ∀ v : Valuation, v.Binds f → f.eval v = g.eval v) ∧
    ((∀ name, name ∈ f.occurrences ↔ name ∈ g.occurrences) →
      ∀ (limits'' : Limits) (u : Table), build limits'' (.binary .equiv f g) = .ok u →
        (t.names = t'.names ∧ t.rows = t'.rows ↔ u.verdict = .tautology)) := by
  have rows := rows_eq_iff_equivalent built built'
  refine ⟨rows, fun same limits'' u both => ?_⟩
  rw [rows, verdict_equiv_iff both same]

/-- `~(A & B)` and `~B | ~A` have the same rows, though their variables come in another order. -/
theorem same_rows_iff_deMorgan :
    ∃ t t', build .roomy (.not (.binary .and (.var ⟨"A", by decide⟩) (.var ⟨"B", by decide⟩))) =
        .ok t ∧
      build .roomy (.binary .or (.not (.var ⟨"B", by decide⟩)) (.not (.var ⟨"A", by decide⟩))) =
        .ok t' ∧
      t.names = t'.names ∧ t.rows = t'.rows := by
  obtain ⟨t, built⟩ : ∃ t, build .roomy (.not (.binary .and (.var ⟨"A", by decide⟩)
      (.var ⟨"B", by decide⟩))) = .ok t := ⟨_, rfl⟩
  obtain ⟨t', built'⟩ : ∃ t, build .roomy (.binary .or (.not (.var ⟨"B", by decide⟩))
      (.not (.var ⟨"A", by decide⟩))) = .ok t := ⟨_, rfl⟩
  refine ⟨t, t', built, built',
    (same_rows_iff built built').1.2 ⟨fun name => ?_, fun v binds => ?_⟩⟩
  · simp [Formula.occurrences, or_comm]
  · obtain ⟨a, boundA⟩ := Option.isSome_iff_exists.1 (binds ⟨"A", by decide⟩ (by decide))
    obtain ⟨b, boundB⟩ := Option.isSome_iff_exists.1 (binds ⟨"B", by decide⟩ (by decide))
    simp only [Formula.eval, boundA, boundB]
    cases a <;> cases b <;> rfl

end Table

end Propositional
