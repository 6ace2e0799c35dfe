import Propositional.Proofs.Table.Records

/-!
# When the records of a table are a text

Delimiter and terminator are bytes, and not every byte is a character. A table has a row, and a
row has two cells at least, each of them a digit: so both bytes stand between ASCII characters
somewhere, whatever the titles are, and the records are a text in ASCII dialects only.

Results:
1. `toUTF8_of_csv`: a text that is made has the bytes of the records.
2. `ascii_of_csv`: it is made in an ASCII dialect only.
3. `csv_ok_iff`: when it is made, and that it is what a sink in memory receives.
-/

namespace Propositional

namespace Table

theorem toUTF8_of_csv {d : Csv.Dialect} {t : Table} {text : String} (h : t.csv d = .ok text) :
    text.toUTF8 = (t.csvBytes d).toByteArray := by
  unfold csv at h
  dsimp only at h
  split at h
  · rename_i found decoded
    cases h
    unfold String.fromUTF8? at decoded
    split at decoded
    · cases decoded
      rfl
    · cases decoded
  · cases h

theorem isText_of_csv {d : Csv.Dialect} {t : Table} {text : String} (h : t.csv d = .ok text) :
    Csv.IsText (t.csvBytes d) := by
  refine ⟨text.toList, List.toByteArray_inj.1 ?_⟩
  rw [← toUTF8_of_csv h, String.toUTF8_eq_toByteArray]
  exact String.utf8Encode_toList.symm

/-- A cell of a row is one ASCII character. -/
theorem encode_digit (value : Bool) : Csv.encode [digit value] = [if value then 49 else 48] := by
  cases value <;> decide

/-- The records of a table end with that of a row, which has a digit for each variable and one
for the formula. -/
theorem csvBytes_eq_append {limits : Limits} {f : Formula} {t : Table} (h : build limits f = .ok t)
    (d : Csv.Dialect) :
    ∃ (before : List UInt8) (values : List Bool), 2 ≤ values.length ∧ t.csvBytes d =
      before ++ Csv.record d (values.map fun value => Csv.encode [digit value]) := by
  obtain ⟨fits, some, names, rows⟩ := build_ok h
  have nonempty : t.rows ≠ [] := by simp [rows]
  obtain ⟨others, last, split⟩ : ∃ others last, t.rows = others ++ [last] :=
    ⟨_, _, (List.dropLast_concat_getLast nonempty).symm⟩
  refine ⟨((if d.header then [t.header.map String.toList] else []) ++
    others.map fun row => row.cells.map fun value => [digit value]).flatMap fun fields =>
      Csv.record d (fields.map Csv.encode), last.cells, ?_, ?_⟩
  · have inputs := length_inputs h (split ▸ List.mem_concat_self)
    have positive := List.length_pos_iff.2 some
    rw [Row.cells, List.length_append, List.length_singleton, inputs, names]
    omega
  · rw [csvBytes, records, split, List.map_append, ← List.append_assoc, List.flatMap_append]
    simp [Function.comp_def]

theorem ascii_of_csv {limits : Limits} {f : Formula} {t : Table} (h : build limits f = .ok t)
    {d : Csv.Dialect} {text : String} (made : t.csv d = .ok text) : d.Ascii := by
  obtain ⟨before, values, two, bytes⟩ := csvBytes_eq_append h d
  have whole := isText_of_csv made
  rw [bytes] at whole
  refine Csv.Dialect.ascii_of_isText_record (by simpa using two) ?_ ?_ whole
  · exact List.forall_mem_map.2 fun value _ => by simp [encode_digit]
  · refine List.forall_mem_map.2 fun value _ => ?_
    cases value <;> simp [encode_digit]

/-- A sink in memory, which keeps the bytes after those that it has. -/
def memory (bytes : List UInt8) : StateM (List UInt8) Unit := modify (· ++ bytes)

/-- The records of a table are a text exactly in the dialects with an ASCII delimiter and an ASCII
terminator, whatever the names of the variables are, and with or without titles. The text then
has the bytes that a sink in memory receives. -/
theorem csv_ok_iff {limits : Limits} {f : Formula} {t : Table} (h : build limits f = .ok t)
    (d : Csv.Dialect) :
    ((∃ text, t.csv d = .ok text) ↔ d.delimiter < 128 ∧
      (d.terminator = .crlf ∨ ∃ value < 128, d.terminator = .byte value)) ∧
    ∀ text, t.csv d = .ok text →
      text.toUTF8 = ((t.writeCsv memory d).run []).2.toByteArray := by
  refine ⟨?_, fun text made => ?_⟩
  · rw [← Csv.Dialect.ascii_iff]
    constructor
    · rintro ⟨text, made⟩
      exact ascii_of_csv h made
    · intro ascii
      obtain ⟨text, made, -⟩ := csv_eq_ok ascii t
      exact ⟨text, made⟩
  · rw [toUTF8_of_csv made]
    rfl

/-- The table of `~é` is a text with semicolons between its cells, and none with the last byte of
`é` there, although that byte is part of a character in both titles. -/
theorem csv_ok_iff_accented :
    ∃ t, build .roomy (.not (.var ⟨"é", by decide⟩)) = .ok t ∧
      (¬ ∃ text, t.csv ⟨169, .crlf, true⟩ = .ok text) ∧
      ∃ text, t.csv ⟨59, .crlf, true⟩ = .ok text ∧
        text.toUTF8 = ((t.writeCsv memory ⟨59, .crlf, true⟩).run []).2.toByteArray := by
  obtain ⟨t, built⟩ : ∃ t, build .roomy (.not (.var ⟨"é", by decide⟩)) = .ok t := ⟨_, rfl⟩
  obtain ⟨text, made⟩ := (csv_ok_iff built ⟨59, .crlf, true⟩).1.2 ⟨by decide, .inl rfl⟩
  refine ⟨t, built, fun made => ?_, text, made, (csv_ok_iff built _).2 text made⟩
  exact absurd ((csv_ok_iff built _).1.1 made).1 (by decide)

end Table

end Propositional
