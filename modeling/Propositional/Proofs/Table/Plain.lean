import Propositional.Proofs.Infix.Characters
import Propositional.Proofs.Table.Records

/-!
# The records of a formula that was read

The titles of the table of a formula that was read are words and an infix form. None of them has
a comma, a quotation mark or a line break, be the formula written with the commas of a call or on
several lines. So the records are their cells with commas between them and line feeds after
them, and a reader needs to know no more.

Results:
1. `isInfixChar_of_mem_records`: the characters of the cells.
2. `csv_eq_of_ofText`: the records as a text.
3. `csv_ofText`: the records, and what is found in them by splitting.
-/

namespace Propositional

namespace Table

/-! ## The cells -/

theorem isInfixChar_digit (value : Bool) : Text.isInfixChar (digit value) = true := by
  cases value <;> decide

/-- Every cell of the records is made of the characters of infix forms. -/
theorem isInfixChar_of_mem_records {limits : Limits} {s : String} {t : Table}
    (h : ofText limits s = .ok t) :
    ∀ fields ∈ t.records true, ∀ cell ∈ fields, ∀ c ∈ cell, Text.isInfixChar c = true := by
  refine List.forall_mem_append.2 ⟨?_, List.forall_mem_map.2 fun row _ => ?_⟩
  · exact List.forall_mem_singleton.2
      (List.forall_mem_map.2 (isInfixChar_of_mem_header h))
  · exact List.forall_mem_map.2 fun value _ => List.forall_mem_singleton.2 (isInfixChar_digit value)

/-- No cell has a character that means something between the cells. -/
theorem notMem_of_mem_records {limits : Limits} {s : String} {t : Table}
    (h : ofText limits s = .ok t) {sign : Char} (special : sign ∈ [',', '"', '\n', '\r']) :
    ∀ fields ∈ t.records true, ∀ cell ∈ fields, sign ∉ cell := by
  intro fields mem cell there inside
  have infixChar := isInfixChar_of_mem_records h fields mem cell there sign inside
  have other : [',', '"', '\n', '\r'].all (fun c => !Text.isInfixChar c) = true := by decide
  simpa [infixChar] using List.all_eq_true.1 other sign special

/-! ## The text -/

/-- The cells of a record with commas between them. -/
def commaLine (fields : List (List Char)) : List Char := [','].intercalate fields

theorem csv_eq_of_ofText {limits : Limits} {s : String} {t : Table}
    (h : ofText limits s = .ok t) :
    ∃ text, t.csv {} = .ok text ∧
      text.toList = (t.records true).flatMap fun fields => commaLine fields ++ ['\n'] := by
  obtain ⟨text, made, bytes⟩ := csv_eq_ok Csv.ascii_default t
  refine ⟨text, made, Csv.encode_injective (bytes.trans ?_)⟩
  rw [Csv.encode, List.flatMap_assoc]
  refine List.flatMap_congr fun fields mem => Csv.record_default fun cell there c inside => ?_
  exact fun special => notMem_of_mem_records h special fields mem cell there inside

/-! ## Splitting -/

/-- Only the comma stands between the cells. -/
theorem notMem_commaLine {limits : Limits} {s : String} {t : Table} (h : ofText limits s = .ok t)
    {sign : Char} (other : sign ≠ ',') (special : sign ∈ [',', '"', '\n', '\r']) :
    ∀ fields ∈ t.records true, sign ∉ commaLine fields := by
  intro fields mem inside
  rcases Text.mem_intercalate inside with comma | ⟨cell, there, inside⟩
  · exact other (List.mem_singleton.1 comma)
  · exact notMem_of_mem_records h special fields mem cell there inside

/-- Every record has a cell for each variable and one for the formula. -/
theorem length_of_mem_records {limits : Limits} {f : Formula} {t : Table}
    (h : build limits f = .ok t) {header : Bool} {fields : List (List Char)}
    (mem : fields ∈ t.records header) : fields.length = t.names.length + 1 := by
  rcases List.mem_append.1 mem with title | row
  · split at title
    · rw [List.mem_singleton.1 title]
      simp [Table.header]
    · cases title
  · obtain ⟨row, there, rfl⟩ := List.mem_map.1 row
    rw [List.length_map, Row.cells, List.length_append, List.length_singleton,
      length_inputs h there]

/-- The records of the table of a text, with commas and line feeds: the titles on the first line
and the digits of each row on a line of its own, and nothing in quotation marks. Splitting the
records at each line feed and each line at each comma gives the cells. -/
theorem csv_ofText {limits : Limits} {s : String} {t : Table} (h : ofText limits s = .ok t) :
    ∃ text, t.csv {} = .ok text ∧ '"' ∉ text.toList ∧
      text.toList = [','].intercalate (t.header.map String.toList) ++ ['\n'] ++
        t.rows.flatMap (fun row =>
          [','].intercalate (row.cells.map fun value => [digit value]) ++ ['\n']) ∧
      ∃ lines, text.toList.splitOn '\n' = lines ++ [[]] ∧
        lines.length = 1 + 2 ^ t.names.length ∧
        (∀ line ∈ lines, (line.splitOn ',').length = t.names.length + 1) ∧
        lines.map (·.splitOn ',') = t.header.map String.toList ::
          t.rows.map fun row => row.cells.map fun value => [digit value] := by
  obtain ⟨text, made, written⟩ := csv_eq_of_ofText h
  obtain ⟨f, -, built⟩ := ofText_ok_iff.1 h
  have records : t.records true = t.header.map String.toList ::
      t.rows.map fun row => row.cells.map fun value => [digit value] := rfl
  have splits : ∀ fields ∈ t.records true, (commaLine fields).splitOn ',' = fields := by
    intro fields mem
    have unbroken : ∀ cell ∈ fields, ',' ∉ cell := notMem_of_mem_records h (by simp) fields mem
    exact List.splitOn_intercalate ',' unbroken (ne_nil_of_mem_records mem)
  refine ⟨text, made, ?_, ?_, (t.records true).map commaLine, ?_, ?_, ?_, ?_⟩
  · rw [written]
    rintro mark
    obtain ⟨fields, mem, inside⟩ := List.mem_flatMap.1 mark
    rcases List.mem_append.1 inside with inside | lineFeed
    · exact notMem_commaLine h (by decide) (by simp) fields mem inside
    · cases List.mem_singleton.1 lineFeed
  · rw [written, records, List.flatMap_cons, List.flatMap_map]
    rfl
  · have unbroken : ∀ line ∈ (t.records true).map commaLine, '\n' ∉ line :=
      List.forall_mem_map.2 (notMem_commaLine h (by decide) (by simp))
    rw [written, ← Text.splitOn_lineFeed unbroken, List.flatMap_map]
  · obtain ⟨fits, -, names, rows⟩ := build_ok built
    simp [records, rows, names, Nat.add_comm]
  · refine List.forall_mem_map.2 fun fields mem => ?_
    rw [splits fields mem, length_of_mem_records built mem]
  · rw [List.map_map, ← records]
    exact (List.map_congr_left splits).trans (List.map_id' _)

/-- A call on two lines, with a comma and a line feed between its arguments. -/
theorem csv_ofText_call :
    ∃ t text, ofText .roomy "Xor(b,\nTrue, a)" = .ok t ∧ t.csv {} = .ok text ∧ '"' ∉ text.toList ∧
      ∃ lines, text.toList.splitOn '\n' = lines ++ [[]] ∧ lines.length = 5 ∧
        lines.map (·.splitOn ',') = [['a'], ['b'], "b ^ True ^ a".toList] ::
          t.rows.map fun row => row.cells.map fun value => [digit value] := by
  let f : Formula :=
    .binary .xor (.binary .xor (.var ⟨"b", by decide⟩) (.const true)) (.var ⟨"a", by decide⟩)
  have read : Formula.parse "Xor(b,\nTrue, a)" = .ok f := by decide +kernel
  obtain ⟨t, built⟩ : ∃ t, build .roomy f = .ok t := ⟨_, rfl⟩
  have h : ofText .roomy "Xor(b,\nTrue, a)" = .ok t := ofText_ok_iff.2 ⟨f, read, built⟩
  obtain ⟨text, made, plain, -, lines, splits, count, -, cells⟩ := csv_ofText h
  obtain ⟨-, fits, rfl⟩ := build_eq_ok built
  exact ⟨_, text, h, made, plain, lines, splits, count, cells⟩

end Table

end Propositional
