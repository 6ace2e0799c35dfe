import Propositional.Proofs.Csv.Reading
import Propositional.Proofs.Csv.Text
import Propositional.Proofs.Table.Rows
import Propositional.Table.Export

/-!
# The records of a table

A reader that knows the dialect of the records of a table finds all of the table in them: the
titles, if the dialect has them, and the digits of each row. Names may be any text; bytes that
mean something to the reader are in quotation marks wherever they stand in a cell.

Results:
1. `Csv.text?_encode`: the bytes of a text are the bytes of no other.
2. `csv_eq_ok`: in an ASCII dialect the records of a table are a text.
3. `read_csvBytes`: what a reader finds in the records of a table.
-/

namespace Propositional

/-- The text that the bytes are, if they are one. -/
def Csv.text? (bytes : List UInt8) : Option String := String.fromUTF8? bytes.toByteArray

theorem Csv.text?_encode (text : String) : text? (encode text.toList) = some text := by
  have bytes : (encode text.toList).toByteArray = text.toByteArray := String.utf8Encode_toList
  rw [text?, bytes, String.fromUTF8?, dif_pos text.isValidUTF8]
  rfl

theorem Csv.encode_injective : Function.Injective encode := by
  intro text text' same
  have decoded := text?_encode (String.ofList text)
  rw [String.toList_ofList, same, ← @String.toList_ofList text', text?_encode] at decoded
  exact (String.ofList_injective (Option.some.inj decoded)).symm

namespace Table

/-- In an ASCII dialect the records of every table are a text. -/
theorem csv_eq_ok {d : Csv.Dialect} (ascii : d.Ascii) (t : Table) :
    ∃ text, t.csv d = .ok text ∧ Csv.encode text.toList = t.csvBytes d := by
  obtain ⟨text, bytes⟩ : Csv.IsText (t.csvBytes d) :=
    Csv.isText_flatMap fun fields _ => ascii.isText_record fields
  have decoded := Csv.text?_encode (String.ofList text)
  rw [String.toList_ofList, ← bytes, Csv.text?] at decoded
  refine ⟨String.ofList text, ?_, by rw [String.toList_ofList, bytes]⟩
  simp only [csv, decoded]

/-- Every record of a table has a cell. -/
theorem ne_nil_of_mem_records {header : Bool} {t : Table} {fields : List (List Char)}
    (mem : fields ∈ t.records header) : fields ≠ [] := by
  rcases List.mem_append.1 mem with title | row
  · split at title
    · rw [List.mem_singleton.1 title]
      simp [Table.header]
    · cases title
  · obtain ⟨row, -, rfl⟩ := List.mem_map.1 row
    simp [Row.cells]

/-- A reader of the dialect finds the cells of the table as they were before they were
written. -/
theorem read_csvBytes_eq (t : Table) {d : Csv.Dialect} (separable : d.Separable) :
    Csv.read d (t.csvBytes d) = (t.records d.header).map fun fields => fields.map Csv.encode := by
  have bytes : t.csvBytes d =
      ((t.records d.header).map fun fields => fields.map Csv.encode).flatMap (Csv.record d) := by
    rw [List.flatMap_map]
    rfl
  rw [bytes]
  refine Csv.read_records separable fun fields mem => ?_
  obtain ⟨cells, there, rfl⟩ := List.mem_map.1 mem
  simpa using ne_nil_of_mem_records there

theorem text?_encode_digit (value : Bool) :
    Csv.text? (Csv.encode [digit value]) = some (if value then "1" else "0") := by
  cases value
  · exact Csv.text?_encode "0"
  · exact Csv.text?_encode "1"

theorem length_inputs {limits : Limits} {f : Formula} {t : Table} (h : build limits f = .ok t)
    {row : Row} (mem : row ∈ t.rows) : row.inputs.length = t.names.length := by
  obtain ⟨fits, -, names, rows⟩ := build_ok h
  rw [rows, List.mem_map] at mem
  obtain ⟨number, -, rfl⟩ := mem
  rw [names]
  exact Assignment.length_values _

/-- If delimiter, terminator and quotation mark are different, the records of a table say all
of it: the names of the variables in their order and the formula, if titles are asked for, and
then the inputs and the output of each row, in order. -/
theorem read_csvBytes {limits : Limits} {f : Formula} {t : Table} (h : build limits f = .ok t)
    {d : Csv.Dialect} (separable : d.Separable) :
    (Csv.read d (t.csvBytes d)).map (·.map Csv.text?) =
        (if d.header then [t.names.map (fun name => some name.text) ++ [some f.text]] else []) ++
          t.rows.map (fun row =>
            (row.inputs ++ [row.output]).map fun value => some (if value then "1" else "0")) ∧
      ∀ row ∈ t.rows, row.inputs.length = t.names.length := by
  have formula : t.formula = f.text := by
    obtain ⟨-, fits, rfl⟩ := build_eq_ok h
    rfl
  refine ⟨?_, fun row mem => length_inputs h mem⟩
  rw [read_csvBytes_eq t separable, records, List.map_append, List.map_append]
  congr 1
  · cases d.header with
    | false => rfl
    | true => simp [Table.header, formula, Csv.text?_encode, Function.comp_def]
  · simp [Row.cells, text?_encode_digit, Function.comp_def]

/-- A table whose titles have a quotation mark, a line break and the digit `1`, in a dialect
that has the digit between its cells: each cell that shows it is in quotation marks. -/
theorem read_csvBytes_digitDelimiter :
    ∃ t, build .roomy (.binary .or (.var ⟨"\"\r\n", by decide⟩) (.var ⟨"1", by decide⟩)) = .ok t ∧
      (Csv.read ⟨49, .crlf, true⟩ (t.csvBytes ⟨49, .crlf, true⟩)).map (·.map Csv.text?) =
        [some "\"\r\n", some "1", some "\"\r\n | 1"] ::
          t.rows.map fun row =>
            (row.inputs ++ [row.output]).map fun value => some (if value then "1" else "0") := by
  obtain ⟨t, built⟩ : ∃ t, build .roomy (.binary .or (.var ⟨"\"\r\n", by decide⟩)
      (.var ⟨"1", by decide⟩)) = .ok t := ⟨_, rfl⟩
  have separable : Csv.Dialect.Separable ⟨49, .crlf, true⟩ := by constructor <;> decide
  refine ⟨t, built, ?_⟩
  rw [(read_csvBytes built separable).1]
  obtain ⟨-, fits, rfl⟩ := build_eq_ok built
  rfl

end Table

end Propositional
