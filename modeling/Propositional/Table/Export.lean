import Propositional.Csv
import Propositional.Table.Layout

/-!
# Tables as delimited records

The first record holds the column titles, if the dialect asks for them; one record of the
digits `0` and `1` follows for each row.
-/

namespace Propositional

/-- The records of a table are bytes that form no text; the first of them that belongs to
no character has the position `index`. -/
inductive ExportError where
  | notText (index : Nat)
deriving DecidableEq, Repr

def ExportError.message : ExportError → String
  | .notText index => s!"invalid utf-8 sequence of 1 bytes from index {index}"

namespace Table

/-- The records of the table: titles, then rows. -/
def records (header : Bool) (t : Table) : List (List (List Char)) :=
  (if header then [t.header.map String.toList] else []) ++
    t.rows.map fun row => row.cells.map fun value => [digit value]

/-- The bytes of the records. -/
def csvBytes (d : Csv.Dialect) (t : Table) : List UInt8 :=
  (t.records d.header).flatMap fun fields => Csv.record d (fields.map Csv.encode)

/-- The records as a text. Delimiters and terminators above 127 are no characters. -/
def csv (d : Csv.Dialect) (t : Table) : Except ExportError String :=
  let bytes := (t.csvBytes d).toByteArray
  match String.fromUTF8? bytes with
  | some text => .ok text
  | none => .error (.notText (Csv.textLength bytes 0))

/-- Hands the bytes of the records to a sink. A failure of the sink is the only one. -/
def writeCsv {m : Type → Type} (sink : List UInt8 → m Unit) (d : Csv.Dialect) (t : Table) :
    m Unit :=
  sink (t.csvBytes d)

end Table

end Propositional
