import Mathlib.Algebra.Ring.Nat
import Propositional.Proofs.Infix.Characters
import Propositional.Proofs.Table.Records

/-!
# The text form of a table is aligned

Every line of the text form has the cells of a column at the same position, and the bars between
the columns at the same positions, whatever characters the titles have: a formula in the last
title may well show bars of its own.

Results:
1. `getElem?_cell`, `getElem?_bar`, `exists_of_getElem?`: what stands at a position of joined
   cells, by induction on the cells.
2. `line_titles`, `line_digits`: what is left of a line without the blanks at its end.
3. `getElem?_ruleLine`, `getElem?_rowLine`: the positions of the lines below the titles.
4. `text_aligned`: every position of every line of the text form.
-/

namespace Propositional

namespace Table

/-! ## Positions -/

/-- Where the cell at `j` starts in a line of cells of these widths, with three characters between
two neighbours. -/
def start (widths : List Nat) (j : Nat) : Nat := ((widths.take j).map (· + 3)).sum

@[simp] theorem start_zero (widths : List Nat) : start widths 0 = 0 := by simp [start]

@[simp] theorem start_cons (width : Nat) (widths : List Nat) (j : Nat) :
    start (width :: widths) (j + 1) = width + 3 + start widths j := by
  simp [start]

theorem start_succ {widths : List Nat} {j width : Nat} (there : widths[j]? = some width) :
    start widths (j + 1) = start widths j + width + 3 := by
  rw [start, start, List.take_add_one, there, List.map_append, List.sum_append]
  simp [Nat.add_assoc]

/-- The width of the last column has no part in where the columns start. -/
theorem start_concat (widths : List Nat) (last : Nat) {j : Nat} (inside : j ≤ widths.length) :
    start (widths ++ [last]) j = start widths j := by
  rw [start, start, List.take_append_of_le_length inside]

/-! ## Joined cells -/

section Joined

variable {fill bar d : Char} {cells : List (List Char)} {cell : List Char} {j k p : Nat}

theorem ne_nil_of_getElem? {α : Type} {xs : List α} {x : α} (there : xs[j]? = some x) : xs ≠ [] :=
  List.ne_nil_of_mem (List.mem_of_getElem? there)

/-- What stands after the first cell and the characters that follow it. -/
theorem getElem?_intercalate_later {first : List Char} (more : cells ≠ []) (p : Nat) :
    ([fill, bar, fill].intercalate (first :: cells))[first.length + 3 + p]? =
      ([fill, bar, fill].intercalate cells)[p]? := by
  rw [Text.intercalate_cons more, Nat.add_assoc, List.getElem?_append_right (Nat.le_add_right ..),
    Nat.add_sub_cancel_left, Nat.add_comm]
  rfl

/-- A cell stands where its column starts. -/
theorem getElem?_cell (there : cells[j]? = some cell) (inside : cell[k]? = some d) :
    ([fill, bar, fill].intercalate cells)[start (cells.map List.length) j + k]? = some d := by
  induction cells generalizing j with
  | nil => cases there
  | cons first rest ih =>
    cases j with
    | zero =>
      obtain rfl : first = cell := Option.some.inj there
      by_cases alone : rest = []
      · simp [alone, inside]
      · obtain ⟨short, -⟩ := List.getElem?_eq_some_iff.1 inside
        rw [start_zero, Nat.zero_add, Text.intercalate_cons alone,
          List.getElem?_append_left short, inside]
    | succ j =>
      have later : rest[j]? = some cell := there
      rw [List.map_cons, start_cons, Nat.add_assoc,
        getElem?_intercalate_later (ne_nil_of_getElem? later), ih later]

/-- The bar stands one position after the cell to its left. -/
theorem getElem?_bar (there : cells[j]? = some cell) (more : j + 1 < cells.length) :
    ([fill, bar, fill].intercalate cells)[start (cells.map List.length) j + cell.length + 1]? =
      some bar := by
  induction cells generalizing j with
  | nil => cases there
  | cons first rest ih =>
    cases j with
    | zero =>
      obtain rfl : first = cell := Option.some.inj there
      have others : rest ≠ [] := List.length_pos_iff.1 (Nat.lt_of_succ_lt_succ more)
      rw [start_zero, Nat.zero_add, Text.intercalate_cons others,
        List.getElem?_append_right (Nat.le_add_right ..), Nat.add_sub_cancel_left]
      rfl
    | succ j =>
      have later : rest[j]? = some cell := there
      rw [List.map_cons, start_cons, Nat.add_assoc, Nat.add_assoc,
        getElem?_intercalate_later (ne_nil_of_getElem? later), ← Nat.add_assoc,
        ih later (Nat.lt_of_succ_lt_succ more)]

/-- Nothing stands in the line but the cells and, between two of them, a bar with a filling
character on each side. -/
theorem exists_of_getElem? (h : ([fill, bar, fill].intercalate cells)[p]? = some d) :
    ∃ j cell, cells[j]? = some cell ∧
      ((∃ k, cell[k]? = some d ∧ p = start (cells.map List.length) j + k) ∨
        j + 1 < cells.length ∧
          (d = fill ∨ d = bar ∧ p = start (cells.map List.length) j + cell.length + 1)) := by
  induction cells generalizing p with
  | nil => cases h
  | cons first rest ih =>
    by_cases alone : rest = []
    · rw [alone, List.intercalate_singleton] at h
      exact ⟨0, first, rfl, .inl ⟨p, h, by simp⟩⟩
    by_cases left : p < first.length
    · rw [Text.intercalate_cons alone, List.getElem?_append_left left] at h
      exact ⟨0, first, rfl, .inl ⟨p, h, by simp⟩⟩
    obtain ⟨k, rfl⟩ := Nat.exists_eq_add_of_le (Nat.le_of_not_lt left)
    by_cases between : k < 3
    · have more : 0 + 1 < (first :: rest).length := Nat.succ_lt_succ (List.length_pos_iff.2 alone)
      rw [Text.intercalate_cons alone, List.getElem?_append_right (Nat.le_add_right ..),
        Nat.add_sub_cancel_left, List.getElem?_append_left between] at h
      refine ⟨0, first, rfl, .inr ⟨more, ?_⟩⟩
      match k, between, h with
      | 0, _, h | 2, _, h => exact .inl (Option.some.inj h).symm
      | 1, _, h => exact .inr ⟨(Option.some.inj h).symm, by simp⟩
    · obtain ⟨q, rfl⟩ := Nat.exists_eq_add_of_le (Nat.le_of_not_lt between)
      rw [← Nat.add_assoc, getElem?_intercalate_later alone] at h
      obtain ⟨j, cell, there, places⟩ := ih h
      refine ⟨j + 1, cell, there, ?_⟩
      rw [List.map_cons, start_cons, List.length_cons, Nat.add_lt_add_iff_right]
      rcases places with ⟨k, inside, rfl⟩ | ⟨more, same | ⟨same, rfl⟩⟩
      · exact .inl ⟨k, inside, by omega⟩
      · exact .inr ⟨more, .inl same⟩
      · exact .inr ⟨more, .inr ⟨same, by omega⟩⟩

/-- The last cell ends where a column after it would have its separator. -/
theorem length_intercalate (some : cells ≠ []) :
    ([fill, bar, fill].intercalate cells).length + 3 =
      start (cells.map List.length) cells.length := by
  induction cells with
  | nil => contradiction
  | cons first rest ih =>
    by_cases alone : rest = []
    · simp [alone]
    · rw [Text.intercalate_cons alone, List.map_cons, List.length_cons, start_cons, ← ih alone]
      simp only [List.length_append, List.length_cons, List.length_nil]
      omega

end Joined

/-! ## Columns -/

/-- Where the column at `j` starts: after the titles before it, each with the three characters that
follow it. -/
def offset (t : Table) (j : Nat) : Nat :=
  ((t.header.take j).map fun title => title.length + 3).sum

/-- The widths of the columns of the variables. -/
def widths (t : Table) : List Nat := t.names.map fun name => name.text.length

@[simp] theorem length_widths (t : Table) : t.widths.length = t.names.length := by
  simp [widths]

/-- Whatever the width of the last column is, the columns start at their offsets. -/
theorem start_widths (t : Table) (last : Nat) {j : Nat} (inside : j ≤ t.names.length) :
    start (t.widths ++ [last]) j = t.offset j := by
  have header : t.header.map String.length = t.widths ++ [t.formula.length] := by
    simp [Table.header, widths, Function.comp_def]
  have inside' : j ≤ t.widths.length := by rwa [length_widths]
  have same : t.offset j = start (t.header.map String.length) j := by
    simp [offset, start, ← List.map_take, Function.comp_def]
  rw [same, header, start_concat _ _ inside', start_concat _ _ inside']

/-- The cells are those of a line: as wide as their columns, but for the last one. -/
def Fills (t : Table) (last : Nat) (cells : List (List Char)) : Prop :=
  cells.map List.length = t.widths ++ [last]

section Columns

variable {t : Table} {last : Nat} {cells : List (List Char)} (fills : t.Fills last cells)
  {fill bar d : Char} {j k p : Nat}
include fills

theorem Fills.length_eq : cells.length = t.names.length + 1 := by
  simpa using congrArg List.length fills

theorem Fills.lt_iff : j < cells.length ↔ j ≤ t.names.length := by
  rw [fills.length_eq, Nat.lt_succ_iff]

/-- The start of a cell is the offset of its column. -/
theorem Fills.start_eq (inside : j < cells.length) :
    start (cells.map List.length) j = t.offset j := by
  rw [fills, start_widths t last (fills.lt_iff.1 inside)]

theorem Fills.getElem?_cell {cell : List Char} (there : cells[j]? = some cell)
    (inside : cell[k]? = some d) :
    ([fill, bar, fill].intercalate cells)[t.offset j + k]? = some d := by
  obtain ⟨short, -⟩ := List.getElem?_eq_some_iff.1 there
  rw [← fills.start_eq short]
  exact Table.getElem?_cell there inside

/-- The column after a cell starts three characters after it. -/
theorem Fills.offset_succ {cell : List Char} (there : cells[j]? = some cell)
    (more : j + 1 < cells.length) : t.offset (j + 1) = t.offset j + cell.length + 3 := by
  rw [← fills.start_eq more, ← fills.start_eq (Nat.lt_of_succ_lt more)]
  exact start_succ (by rw [List.getElem?_map, there]; rfl)

theorem Fills.getElem?_bar (positive : 1 ≤ j) (inside : j ≤ t.names.length) :
    ([fill, bar, fill].intercalate cells)[t.offset j - 2]? = some bar := by
  obtain ⟨j, rfl⟩ := Nat.exists_eq_add_of_le' positive
  have more := fills.lt_iff.2 inside
  have there : cells[j]? = some cells[j] := List.getElem?_eq_getElem _
  have place : t.offset (j + 1) - 2 = start (cells.map List.length) j + cells[j].length + 1 := by
    rw [fills.offset_succ there more, fills.start_eq (Nat.lt_of_succ_lt more)]
    rfl
  rw [place]
  exact Table.getElem?_bar there more

theorem Fills.exists_of_getElem? (h : ([fill, bar, fill].intercalate cells)[p]? = some d) :
    (∃ j ≤ t.names.length, ∃ cell, cells[j]? = some cell ∧
        ∃ k, cell[k]? = some d ∧ p = t.offset j + k) ∨
      d = fill ∨ d = bar ∧ ∃ j, 1 ≤ j ∧ j ≤ t.names.length ∧ p = t.offset j - 2 := by
  obtain ⟨j, cell, there, places⟩ := Table.exists_of_getElem? h
  obtain ⟨short, -⟩ := List.getElem?_eq_some_iff.1 there
  rw [fills.start_eq short] at places
  rcases places with ⟨k, shown, rfl⟩ | ⟨more, same | ⟨same, rfl⟩⟩
  · exact .inl ⟨j, fills.lt_iff.1 short, cell, there, k, shown, rfl⟩
  · exact .inr (.inl same)
  · refine .inr (.inr ⟨same, j + 1, Nat.le_add_left .., fills.lt_iff.1 more, ?_⟩)
    rw [fills.offset_succ there more]
    rfl

/-- The line ends with its last cell. -/
theorem Fills.length_intercalate :
    ([fill, bar, fill].intercalate cells).length = t.offset t.names.length + last := by
  have some : cells ≠ [] := by
    rw [← List.length_pos_iff, fills.length_eq]
    exact Nat.succ_pos _
  have whole : ([fill, bar, fill].intercalate cells).length + 3 =
      start (cells.map List.length) cells.length := Table.length_intercalate some
  have final : (t.widths ++ [last])[t.names.length]? = .some last := by
    rw [← length_widths, List.getElem?_concat_length]
  rw [fills, fills.length_eq, start_succ final, start_widths t last (Nat.le_refl _)] at whole
  omega

end Columns

/-! ## The lines of a table -/

theorem pad_digit (width : Nat) (value : Bool) :
    pad width [digit value] = digit value :: List.replicate (width - 1) ' ' := rfl

theorem map_length_header (t : Table) :
    (t.header.map String.toList).map List.length = t.widths ++ [t.formula.length] := by
  simp [Table.header, widths, Function.comp_def, String.length_toList]

theorem fills_titles (t : Table) : t.Fills t.formula.length (t.header.map String.toList) :=
  t.map_length_header

theorem fills_rule (t : Table) :
    t.Fills t.formula.length ((t.widths ++ [t.formula.length]).map (List.replicate · '-')) := by
  simp [Fills, Function.comp_def]

/-- The titles side by side. -/
def titleLine (t : Table) : List Char := [' ', '|', ' '].intercalate (t.header.map String.toList)

/-- The line between titles and rows. -/
def ruleLine (t : Table) : List Char := rule (t.widths ++ [t.formula.length])

/-- No title is shorter than its column, and the last one ends with a character that shows. -/
theorem line_titles {t : Table} (ends : Text.EndsVisibly t.formula.toList) :
    line (t.widths ++ [t.formula.length]) (t.header.map String.toList) = t.titleLine := by
  have whole : List.zipWith pad (t.widths ++ [t.formula.length]) (t.header.map String.toList) =
      t.header.map String.toList := by
    rw [← map_length_header, List.zipWith_map_left, List.zipWith_self]
    exact (List.map_congr_left fun title _ => by simp [pad]).trans (List.map_id _)
  rw [line, whole, ← titleLine]
  refine Text.EndsVisibly.trimEnd_eq ?_
  obtain ⟨before, joined⟩ :=
    Text.exists_intercalate_concat [' ', '|', ' '] ((t.names.map Name.text).map String.toList)
  rw [titleLine, Table.header, List.map_append, List.map_singleton, joined]
  exact ends.append before

/-- The cells of a row, each but the last as wide as its column. -/
def digitCells (t : Table) (row : Row) : List (List Char) :=
  List.zipWith pad t.widths (row.inputs.map fun value => [digit value]) ++ [[digit row.output]]

/-- The digits of a row, each below its title. -/
def rowLine (t : Table) (row : Row) : List Char := [' ', '|', ' '].intercalate (t.digitCells row)

/-- The digit of the last cell is what a row ends with. -/
theorem line_digits {t : Table} {row : Row} (same : row.inputs.length = t.names.length) :
    line (t.widths ++ [t.formula.length]) (row.cells.map fun value => [digit value]) =
      t.rowLine row := by
  have padded : List.zipWith pad (t.widths ++ [t.formula.length])
      (row.cells.map fun value => [digit value]) =
        List.zipWith pad t.widths (row.inputs.map fun value => [digit value]) ++
          [[digit row.output] ++ List.replicate (t.formula.length - 1) ' '] := by
    rw [Row.cells, List.map_append, List.zipWith_append (by simp [same])]
    rfl
  obtain ⟨before, joined⟩ := Text.exists_intercalate_concat [' ', '|', ' ']
    (List.zipWith pad t.widths (row.inputs.map fun value => [digit value]))
  have visible : Text.EndsVisibly [digit row.output] :=
    Text.endsVisibly_singleton (by cases row.output <;> decide)
  rw [line, padded, rowLine, digitCells, joined, joined, ← List.append_assoc]
  refine (visible.append before).trimEnd_append fun c mem => ?_
  rw [List.eq_of_mem_replicate mem]
  decide

theorem fills_digits {t : Table} {row : Row} (same : row.inputs.length = t.names.length) :
    t.Fills 1 (t.digitCells row) := by
  have wide : ∀ width ∈ t.widths, 1 ≤ width := by
    refine List.forall_mem_map.2 fun name _ => ?_
    rw [← String.length_toList]
    exact List.length_pos_iff.2 (mt String.toList_eq_nil_iff.1 name.nonempty)
  rw [Fills, digitCells, List.map_append, List.map_zipWith, List.zipWith_map_right]
  congr 1
  refine List.ext_getElem (by simp [same]) fun i short inside => ?_
  have := wide _ (List.getElem_mem inside)
  simp only [List.getElem_zipWith, pad_digit, List.length_cons, List.length_replicate]
  omega

/-- A row has a digit for every column, and blanks in the rest of the cell. -/
theorem getElem?_digitCells {t : Table} {row : Row} (same : row.inputs.length = t.names.length)
    {j : Nat} (inside : j ≤ t.names.length) :
    ∃ value blanks, row.cells[j]? = some value ∧
      (t.digitCells row)[j]? = some (digit value :: List.replicate blanks ' ') := by
  have padded : (List.zipWith pad t.widths (row.inputs.map fun value => [digit value])).length =
      t.names.length := by simp [same]
  rcases Nat.lt_or_eq_of_le inside with input | rfl
  · have short : j < row.inputs.length := same ▸ input
    have column : j < t.widths.length := by rwa [length_widths]
    refine ⟨row.inputs[j], t.widths[j] - 1, ?_, ?_⟩
    · rw [Row.cells, List.getElem?_append_left short, List.getElem?_eq_getElem short]
    · rw [digitCells, List.getElem?_append_left (padded ▸ input), List.getElem?_zipWith,
        List.getElem?_map, List.getElem?_eq_getElem short, List.getElem?_eq_getElem column]
      rfl
  · refine ⟨row.output, 0, ?_, ?_⟩
    · rw [Row.cells, ← same, List.getElem?_concat_length]
    · rw [digitCells, ← padded, List.getElem?_concat_length]
      rfl

/-- The lines of a table without their padding at the end. -/
theorem lines_eq {t : Table} (ends : Text.EndsVisibly t.formula.toList)
    (same : ∀ row ∈ t.rows, row.inputs.length = t.names.length) :
    t.lines = t.titleLine :: t.ruleLine :: t.rows.map t.rowLine := by
  have rows := List.map_congr_left fun row mem => line_digits (same row mem)
  rw [lines, map_length_header, line_titles ends, rows]
  rfl

/-! ## Every position -/

/-- Below each bar the line between titles and rows has a plus, and dashes elsewhere. -/
theorem getElem?_ruleLine {t : Table} {p : Nat} {d : Char} (h : t.ruleLine[p]? = some d) :
    d = '-' ∨ d = '+' ∧ ∃ j, 1 ≤ j ∧ j ≤ t.names.length ∧ p = t.offset j - 2 := by
  rcases t.fills_rule.exists_of_getElem? h with ⟨j, -, cell, there, k, shown, -⟩ | other
  · rw [List.getElem?_map, Option.map_eq_some_iff] at there
    obtain ⟨width, -, rfl⟩ := there
    exact .inl (List.eq_of_mem_replicate (List.mem_of_getElem? shown))
  · exact other

theorem getElem?_ruleLine_eq_plus {t : Table} {p : Nat} :
    t.ruleLine[p]? = some '+' ↔ ∃ j, 1 ≤ j ∧ j ≤ t.names.length ∧ p = t.offset j - 2 := by
  constructor
  · intro plus
    rcases getElem?_ruleLine plus with dash | ⟨-, place⟩
    · cases dash
    · exact place
  · rintro ⟨j, positive, inside, rfl⟩
    exact t.fills_rule.getElem?_bar positive inside

/-- Between the digits and the bars of a row there are only blanks. -/
theorem getElem?_rowLine {t : Table} {row : Row} (same : row.inputs.length = t.names.length)
    {p : Nat} {d : Char} (h : (t.rowLine row)[p]? = some d) :
    d = ' ' ∨ ∃ j ≤ t.names.length, p = t.offset j ∨ p = t.offset j - 2 := by
  rcases (fills_digits same).exists_of_getElem? h with
    ⟨j, inside, cell, there, k, shown, place⟩ | blank | ⟨-, j, -, inside, place⟩
  · obtain ⟨value, blanks, -, stands⟩ := getElem?_digitCells same inside
    cases there.symm.trans stands
    cases k with
    | zero => exact .inr ⟨j, inside, .inl place⟩
    | succ k => exact .inl (List.eq_of_mem_replicate (List.mem_of_getElem? shown))
  · exact .inl blank
  · exact .inr ⟨j, inside, .inr place⟩

theorem getElem?_rowLine_offset {t : Table} {row : Row}
    (same : row.inputs.length = t.names.length) {j : Nat} (inside : j ≤ t.names.length) :
    ∃ value, row.cells[j]? = some value ∧ (t.rowLine row)[t.offset j]? = some (digit value) := by
  obtain ⟨value, blanks, known, there⟩ := getElem?_digitCells same inside
  exact ⟨value, known, (fills_digits same).getElem?_cell (k := 0) there rfl⟩

/-! ## One line each -/

theorem lineFeed_notMem_titleLine {limits : Limits} {s : String} {t : Table}
    (h : ofText limits s = .ok t) : '\n' ∉ t.titleLine := by
  intro mem
  rcases Text.mem_intercalate mem with separator | ⟨cell, there, inside⟩
  · revert separator
    decide
  · obtain ⟨title, known, rfl⟩ := List.mem_map.1 there
    cases isInfixChar_of_mem_header h title known '\n' inside

theorem lineFeed_notMem_ruleLine (t : Table) : '\n' ∉ t.ruleLine := by
  intro mem
  obtain ⟨p, stands⟩ := List.getElem?_of_mem mem
  rcases getElem?_ruleLine stands with dash | ⟨plus, -⟩
  · cases dash
  · cases plus

theorem lineFeed_notMem_rowLine {t : Table} {row : Row}
    (same : row.inputs.length = t.names.length) : '\n' ∉ t.rowLine row := by
  intro mem
  rcases Text.mem_intercalate mem with separator | ⟨cell, there, inside⟩
  · revert separator
    decide
  · obtain ⟨j, stands⟩ := List.getElem?_of_mem there
    obtain ⟨short, -⟩ := List.getElem?_eq_some_iff.1 stands
    obtain ⟨value, blanks, -, known⟩ :=
      getElem?_digitCells same ((fills_digits same).lt_iff.1 short)
    cases stands.symm.trans known
    rcases List.mem_cons.1 inside with digit | blank
    · cases value <;> cases digit
    · cases List.eq_of_mem_replicate blank

end Table

end Propositional
