import Propositional.Proofs.Enumeration.NestedLoops
import Propositional.Proofs.Renaming
import Propositional.Proofs.Table.Verdict

/-!
# Tables of renamed formulas

The names of the variables decide the order of the columns and nothing else. Where different
variables get different names, the rows of the renamed formula are those of the formula with their
values in another order, so that also the rows come in another order.

Results:
1. `rows_eq_map_nestedLoops`: the row of a vector of values is the row of a choice of values.
2. `outputs_rename_perm`: the outputs of the renamed formula, up to their order.
3. `rows_rename_of_monotone`: names that keep their order keep the rows.
4. `build_rename`: all that a renaming does to a table.
-/

namespace Propositional

/-- The valuation in which every name has its value. -/
def Valuation.ofValues (value : Name → Bool) : Valuation := fun text =>
  (Name.ofString? text).map value

theorem Valuation.ofValues_text (value : Name → Bool) (name : Name) :
    ofValues value name.text = some (value name) := by
  rw [ofValues, Name.ofString?, dif_pos name.nonempty]
  rfl

/-- The verdict depends on which outputs there are, and not on their order. -/
theorem Verdict.ofResults_perm {results results' : List Bool} (same : results.Perm results') :
    ofResults results = ofResults results' := by
  rw [ofResults_eq, ofResults_eq]
  simp only [same.mem_iff]

namespace Formula

/-- A renamed formula has the value that the formula has where the new names have their values. -/
theorem eval_rename (f : Formula) (r : Name → Name) (value : Name → Bool) :
    (f.rename r).eval (.ofValues value) = f.eval (.ofValues fun name => value (r name)) := by
  induction f with
  | const constant => rfl
  | var name =>
    rw [rename, eval, eval, Valuation.ofValues_text, Valuation.ofValues_text]
  | not a ih => rw [rename, eval, eval, ih]
  | binary op a b iha ihb => rw [rename, eval, eval, iha, ihb]

/-- Different variables get different names. -/
def Separates (f : Formula) (r : Name → Name) : Prop :=
  ∀ a ∈ f.occurrences, ∀ b ∈ f.occurrences, r a = r b → a = b

variable {f : Formula} {r : Name → Name}

theorem mem_names_rename {name : Name} : name ∈ (f.rename r).names ↔ name ∈ f.names.map r := by
  simp only [mem_names, occurrences_rename, List.mem_map]

/-- The variables get another order. -/
theorem names_rename_perm (separates : f.Separates r) :
    (f.rename r).names.Perm (f.names.map r) := by
  have distinct : (f.names.map r).Nodup :=
    f.nodup_names.map_on fun a memA b memB => separates a (mem_names.1 memA) b (mem_names.1 memB)
  exact (List.perm_ext_iff_of_nodup (nodup_names _) distinct).2 fun name => mem_names_rename

theorem length_names_rename (separates : f.Separates r) :
    (f.rename r).names.length = f.names.length := by
  rw [(names_rename_perm separates).length_eq, List.length_map]

end Formula

namespace Table

open Enumeration (nestedLoops mem_nestedLoops)

/-! ## Rows by the values of the variables -/

/-- The row in which every variable has its value. -/
def rowOf (f : Formula) (value : Name → Bool) : Row :=
  ⟨f.names.map value, (f.eval (.ofValues value)).getD false⟩

/-- The value of a name in a list of values of some names. -/
def valueIn (names : List Name) (inputs : List Bool) (name : Name) : Bool :=
  inputs.getD (names.idxOf name) false

theorem map_valueIn {names : List Name} {inputs : List Bool} (distinct : names.Nodup)
    (same : inputs.length = names.length) : names.map (valueIn names inputs) = inputs := by
  refine List.ext_getElem (by simp [same]) fun j inside inside' => ?_
  have place : j < names.length := by simpa using inside
  rw [List.getElem_map, valueIn, distinct.idxOf_getElem j place]
  simp [inside']

/-- The values of the variables make the row. -/
theorem rowOf_congr {f : Formula} {value value' : Name → Bool}
    (same : f.names.map value = f.names.map value') : rowOf f value = rowOf f value' := by
  have values := List.map_inj_left.1 same
  rw [rowOf, rowOf, same]
  refine congrArg _ (congrArg (Option.getD · false) (Formula.eval_congr fun name occurs => ?_))
  rw [Valuation.ofValues_text, Valuation.ofValues_text, values name (Formula.mem_names.2 occurs)]

/-- A row with the values as its inputs is the row of the values. -/
theorem row_eq_rowOf {f : Formula} {a : Assignment} (same : a.names.toList = f.names)
    {value : Name → Bool} (inputs : (row f a).inputs = f.names.map value) :
    row f a = rowOf f value := by
  have output := eval_row same
  rw [inputs, Formula.eval_congr (w := .ofValues value) fun name occurs => ?_] at output
  · rw [rowOf, output, ← inputs]
    rfl
  · obtain ⟨j, there⟩ := List.mem_iff_getElem?.1 (Formula.mem_names.2 occurs)
    rw [Valuation.ofValues_text]
    refine Valuation.getElem?_binding f.ascending_names (by simp) there ?_
    rw [List.getElem?_map, there]
    rfl

variable {limits : Limits} {f : Formula} {t : Table}

/-- Nested loops over the values of the variables go through the rows. -/
theorem rows_eq_map_nestedLoops (h : build limits f = .ok t) :
    t.rows = (nestedLoops f.names.length).map fun inputs => rowOf f (valueIn f.names inputs) := by
  obtain ⟨fits, -, -, rows⟩ := build_ok h
  rw [rows, ← Enumeration.map_digits_range, List.map_map]
  refine List.map_congr_left fun number mem => row_eq_rowOf rfl ?_
  have inputs := inputs_rowAt fits (List.mem_range.1 mem)
  rw [← Assignment.digits_eq_map] at inputs
  rw [map_valueIn f.nodup_names (by simp [Assignment.digits_eq_map])]
  exact inputs

theorem mem_rows_iff (h : build limits f = .ok t) {found : Row} :
    found ∈ t.rows ↔ ∃ value, found = rowOf f value := by
  rw [rows_eq_map_nestedLoops h, List.mem_map]
  constructor
  · rintro ⟨inputs, -, rfl⟩
    exact ⟨_, rfl⟩
  · rintro ⟨value, rfl⟩
    refine ⟨f.names.map value, mem_nestedLoops.2 (by simp), rowOf_congr ?_⟩
    exact map_valueIn f.nodup_names (by simp)

/-- The row with some values of the variables is the one row that shows them. -/
theorem forall_mem_zip_iff {names : List Name} {inputs : List Bool} {value : Name → Bool}
    (distinct : names.Nodup) (same : inputs.length = names.length) :
    (∀ name ∈ names, (name, value name) ∈ names.zip inputs) ↔ inputs = names.map value := by
  constructor
  · intro shown
    rw [← map_valueIn distinct same]
    refine List.map_congr_left fun name mem => ?_
    obtain ⟨j, place⟩ := List.mem_iff_getElem?.1 (shown name mem)
    obtain ⟨named, valued⟩ := List.getElem?_zip_eq_some.1 place
    obtain ⟨inside, rfl⟩ := List.getElem?_eq_some_iff.1 named
    rw [valueIn, distinct.idxOf_getElem j inside]
    simp [valued]
  · rintro rfl name mem
    obtain ⟨j, there⟩ := List.mem_iff_getElem?.1 mem
    refine List.mem_of_getElem? (i := j) ?_
    rw [List.getElem?_zip_eq_some, List.getElem?_map, there]
    exact ⟨rfl, rfl⟩

/-! ## Renaming -/

variable {r : Name → Name}

/-- The values that the formula has in a row of the renamed formula. -/
def movedBack (f : Formula) (r : Name → Name) (inputs : List Bool) : List Bool :=
  f.names.map fun name => valueIn (f.rename r).names inputs (r name)

theorem output_rowOf_rename (value : Name → Bool) :
    (rowOf (f.rename r) value).output = (rowOf f fun name => value (r name)).output := by
  rw [rowOf, rowOf, Formula.eval_rename]

/-- No two vectors of values are moved to one, and so each is moved to by some other. -/
theorem movedBack_perm (separates : f.Separates r) :
    ((nestedLoops f.names.length).map (movedBack f r)).Perm (nestedLoops f.names.length) := by
  have irrefl : Std.Irrefl fun a b : List Bool => a < b := ⟨fun a => List.lt_irrefl a⟩
  have distinct : (nestedLoops f.names.length).Nodup :=
    (Enumeration.pairwise_nestedLoops _).nodup
  have lengths := Formula.length_names_rename separates
  have moved : ((nestedLoops f.names.length).map (movedBack f r)).Nodup := by
    refine distinct.map_on fun a memA b memB same => ?_
    rw [mem_nestedLoops, ← lengths] at memA memB
    rw [← map_valueIn (Formula.nodup_names _) memA, ← map_valueIn (Formula.nodup_names _) memB]
    refine List.map_congr_left fun name mem => ?_
    obtain ⟨old, there, rfl⟩ := List.mem_map.1 (Formula.mem_names_rename.1 mem)
    exact List.map_inj_left.1 same old there
  have inside : (nestedLoops f.names.length).map (movedBack f r) ⊆ nestedLoops f.names.length := by
    intro vector mem
    obtain ⟨inputs, -, rfl⟩ := List.mem_map.1 mem
    exact mem_nestedLoops.2 (by simp [movedBack])
  exact (List.subperm_of_subset moved inside).perm_of_length_le (by simp)

/-- The renamed formula has the outputs of the formula, each as often. -/
theorem outputs_rename_perm {limits' : Limits} {t' : Table} (separates : f.Separates r)
    (h : build limits f = .ok t) (h' : build limits' (f.rename r) = .ok t') :
    (t'.rows.map Row.output).Perm (t.rows.map Row.output) := by
  rw [rows_eq_map_nestedLoops h, rows_eq_map_nestedLoops h',
    Formula.length_names_rename separates, List.map_map, List.map_map]
  refine (List.Perm.of_eq ?_).trans ((movedBack_perm separates).map _)
  rw [List.map_map]
  refine List.map_congr_left fun inputs mem => ?_
  simp only [Function.comp_apply, output_rowOf_rename]
  refine congrArg Row.output (rowOf_congr ?_)
  exact (map_valueIn f.nodup_names (by simp)).symm

theorem length_models (t : Table) : t.models.length = (t.rows.map Row.output).count true := by
  rw [models, List.count_eq_countP, List.countP_map, List.countP_eq_length_filter]
  congr 2
  funext row
  simp

/-- Some values of the variables are shown by one row of the table, and by no other. -/
theorem exists_shown {limits : Limits} {f : Formula} {t : Table} (h : build limits f = .ok t)
    (value : Name → Bool) :
    rowOf f value ∈ t.rows ∧ ∀ found ∈ t.rows,
      (∀ name ∈ f.occurrences, (name, value name) ∈ t.names.zip found.inputs) ↔
        found = rowOf f value := by
  obtain ⟨-, -, names, -⟩ := build_ok h
  refine ⟨(mem_rows_iff h).2 ⟨value, rfl⟩, fun found mem => ?_⟩
  obtain ⟨value', rfl⟩ := (mem_rows_iff h).1 mem
  simp only [names, ← Formula.mem_names]
  rw [forall_mem_zip_iff f.nodup_names (by simp [rowOf])]
  exact ⟨rowOf_congr, fun same => congrArg Row.inputs same⟩

/-- Names that are in the order of the variables are in their places. -/
theorem names_rename_of_monotone
    (monotone : ∀ a ∈ f.occurrences, ∀ b ∈ f.occurrences,
      compare a b = .lt → compare (r a) (r b) = .lt) : (f.rename r).names = f.names.map r := by
  have ascending : Name.Ascending (f.names.map r) := by
    refine List.pairwise_map.2 (f.ascending_names.imp_of_mem fun memA memB less => ?_)
    exact monotone _ (Formula.mem_names.1 memA) _ (Formula.mem_names.1 memB) less
  exact (Formula.ascending_names _).eq_of_mem_iff ascending fun name => Formula.mem_names_rename

theorem rows_rename_of_names {limits' : Limits} {t' : Table} (h : build limits f = .ok t)
    (h' : build limits' (f.rename r) = .ok t') (names : (f.rename r).names = f.names.map r) :
    t'.rows = t.rows := by
  have lengths : (f.rename r).names.length = f.names.length := by rw [names, List.length_map]
  rw [rows_eq_map_nestedLoops h, rows_eq_map_nestedLoops h', lengths]
  refine List.map_congr_left fun inputs mem => ?_
  have long := mem_nestedLoops.1 mem
  have shown := map_valueIn (Formula.nodup_names (f.rename r)) (long.trans lengths.symm)
  have shown' := map_valueIn f.nodup_names long
  -- the variables have the values in this row that their new names have in the other
  have back : f.names.map (fun name => valueIn (f.rename r).names inputs (r name)) =
      f.names.map (valueIn f.names inputs) := by
    calc f.names.map (fun name => valueIn (f.rename r).names inputs (r name))
        = (f.names.map r).map (valueIn (f.rename r).names inputs) := by
          rw [List.map_map]
          rfl
      _ = (f.rename r).names.map (valueIn (f.rename r).names inputs) := by rw [← names]
      _ = f.names.map (valueIn f.names inputs) := shown.trans shown'.symm
  calc rowOf (f.rename r) (valueIn (f.rename r).names inputs)
      = ⟨inputs, (rowOf (f.rename r) (valueIn (f.rename r).names inputs)).output⟩ := by
        rw [rowOf, shown]
    _ = ⟨inputs, (rowOf f (valueIn f.names inputs)).output⟩ := by
        rw [output_rowOf_rename, rowOf_congr back]
    _ = rowOf f (valueIn f.names inputs) := by rw [rowOf, shown']

/-! ## The whole table -/

/-- As many variables have the same answer, as long as it is no table. -/
theorem build_error_congr {g : Formula} (same : g.names.length = f.names.length)
    {error : BuildError} : build limits g = .error error ↔ build limits f = .error error := by
  rw [build_eq, build_eq]
  simp only [same]
  split
  · rfl
  split
  · split
    · simp
    · rfl
  · rfl

/-- Values of the variables are values of their new names. -/
theorem exists_renamed (separates : f.Separates r) (value : Name → Bool) :
    ∃ value' : Name → Bool, ∀ name ∈ f.occurrences, value' (r name) = value name := by
  classical
  refine ⟨fun new => decide (∃ name ∈ f.occurrences, r name = new ∧ value name = true),
    fun name occurs => ?_⟩
  rw [Bool.eq_iff_iff, decide_eq_true_iff]
  constructor
  · rintro ⟨other, occurs', same, valued⟩
    rwa [← separates other occurs' name occurs same]
  · intro valued
    exact ⟨name, occurs, rfl, valued⟩

/-- Names only decide the order of the columns. If different variables get different names, the
renamed formula has a table where the formula has one, and is refused for the same reason where it
is not. Both tables have as many rows, as many models and the same verdict, and the row in which
each new name has the value of its variable has the output of the row in which the variables have
these values. If the names keep their order, all rows are the same. -/
theorem build_rename {f : Formula} {r : Name → Name}
    (different : ∀ a ∈ f.occurrences, ∀ b ∈ f.occurrences, r a = r b → a = b) (limits : Limits) :
    (∀ error, build limits (f.rename r) = .error error ↔ build limits f = .error error) ∧
    ∀ t t', build limits f = .ok t → build limits (f.rename r) = .ok t' →
      t'.rows.length = t.rows.length ∧ t'.verdict = t.verdict ∧
      t'.models.length = t.models.length ∧
      (∀ value : Name → Bool, ∃ row ∈ t.rows, ∃ row' ∈ t'.rows, row'.output = row.output ∧
        (∀ found ∈ t.rows,
          (∀ name ∈ f.occurrences, (name, value name) ∈ t.names.zip found.inputs) ↔
            found = row) ∧
        ∀ found ∈ t'.rows,
          (∀ name ∈ f.occurrences, (r name, value name) ∈ t'.names.zip found.inputs) ↔
            found = row') ∧
      ((∀ a ∈ f.occurrences, ∀ b ∈ f.occurrences,
          compare a b = .lt → compare (r a) (r b) = .lt) →
        t'.names = t.names.map r ∧ t'.rows = t.rows) := by
  refine ⟨fun error => build_error_congr (Formula.length_names_rename different),
    fun t t' built built' => ?_⟩
  have outputs := outputs_rename_perm different built built'
  obtain ⟨-, -, names, -⟩ := build_ok built
  obtain ⟨-, -, names', -⟩ := build_ok built'
  refine ⟨?_, ?_, ?_, fun value => ?_, fun monotone => ?_⟩
  · simpa using outputs.length_eq
  · rw [verdict_eq built, verdict_eq built', Verdict.ofResults_perm outputs]
  · rw [length_models, length_models, outputs.count_eq]
  · obtain ⟨value', same⟩ := exists_renamed different value
    obtain ⟨mem, shown⟩ := exists_shown built value
    obtain ⟨mem', shown'⟩ := exists_shown built' value'
    refine ⟨_, mem, _, mem', ?_, shown, fun found there => ?_⟩
    · rw [output_rowOf_rename]
      refine congrArg Row.output (rowOf_congr (List.map_congr_left fun name occurs => ?_))
      exact same name (Formula.mem_names.1 occurs)
    · rw [← shown' found there, Formula.occurrences_rename, List.forall_mem_map]
      exact forall₂_congr fun name occurs => by rw [same name occurs]
  · have columns := names_rename_of_monotone monotone
    rw [names, names']
    exact ⟨columns, rows_rename_of_names built built' columns⟩

/-- `A & ~B` with the names `Z` and `C` has its columns the other way round, and one model as
before. -/
theorem build_rename_reordered :
    ∃ t t', build .roomy (.binary .and (.var ⟨"A", by decide⟩) (.not (.var ⟨"B", by decide⟩))) =
        .ok t ∧
      build .roomy (.binary .and (.var ⟨"Z", by decide⟩) (.not (.var ⟨"C", by decide⟩))) = .ok t' ∧
      t'.names.map Name.text = ["C", "Z"] ∧ t'.rows.length = t.rows.length ∧
      t'.verdict = t.verdict ∧ t'.models.length = t.models.length := by
  obtain ⟨t, built⟩ : ∃ t, build .roomy (.binary .and (.var ⟨"A", by decide⟩)
      (.not (.var ⟨"B", by decide⟩))) = .ok t := ⟨_, rfl⟩
  obtain ⟨t', built'⟩ : ∃ t, build .roomy (.binary .and (.var ⟨"Z", by decide⟩)
      (.not (.var ⟨"C", by decide⟩))) = .ok t := ⟨_, rfl⟩
  obtain ⟨-, -, names, -⟩ := build_ok built'
  let r (name : Name) : Name := if name.text = "A" then ⟨"Z", by decide⟩ else ⟨"C", by decide⟩
  obtain ⟨length, verdict, models, -⟩ :=
    (build_rename (r := r) (by decide) .roomy).2 t t' built built'
  refine ⟨t, t', built, built', ?_, length, verdict, models⟩
  rw [names]
  decide

end Table

end Propositional
