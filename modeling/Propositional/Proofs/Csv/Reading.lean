import Propositional.Csv

/-!
# Reading delimited records

A reader of records knows their dialect and nothing else. The bytes are divided at the
delimiters and terminators outside quotation marks; a mark inside a field is written twice, and
so leaves the count of marks as it was. Each part then loses the marks around it, and one of
each two marks inside it.

If delimiter, terminator and quotation mark are different, every boundary in the bytes of
written records is one that was written, whatever bytes the fields have.

Results:
1. `cut_field`: the first boundary after a written field is the one that follows it.
2. `unquote_field`: a written field stands for the bytes that it was written for.
3. `read_record`, `read_records`: one record, and by induction all of them.
-/

namespace Propositional.Csv

/-! ## The reader -/

/-- What ends a field: a delimiter the field only, a terminator its record too. -/
inductive Boundary where
  | field
  | record
deriving DecidableEq, Repr

/-- The boundary at the start of the bytes, and the bytes after it. -/
def Dialect.boundary? (d : Dialect) (bytes : List UInt8) : Option (Boundary × List UInt8) :=
  if bytes.head? = some d.delimiter then some (.field, bytes.drop 1)
  else if d.terminator.bytes <+: bytes then
    some (.record, bytes.drop d.terminator.bytes.length)
  else none

/-- The bytes before the first boundary outside quotation marks, that boundary, and the bytes
after it. -/
def cut (d : Dialect) (quoted : Bool) : List UInt8 → List UInt8 × Option (Boundary × List UInt8)
  | [] => ([], none)
  | byte :: rest =>
    match if quoted then none else d.boundary? (byte :: rest) with
    | some found => ([], some found)
    | none =>
      let after := cut d (quoted ^^ byte == quote) rest
      (byte :: after.1, after.2)

/-- One of each two quotation marks. -/
def halve : List UInt8 → List UInt8
  | first :: second :: rest =>
    if first = quote ∧ second = quote then quote :: halve rest
    else first :: halve (second :: rest)
  | bytes => bytes

/-- The bytes of the field that a part stands for. -/
def unquote : List UInt8 → List UInt8
  | [] => []
  | first :: rest =>
    if first = quote ∧ rest.getLast? = some quote then halve rest.dropLast else first :: rest

theorem Terminator.bytes_ne_nil (t : Terminator) : t.bytes ≠ [] := by
  cases t <;> simp [bytes]

theorem length_of_boundary? {d : Dialect} {byte : UInt8} {bytes rest : List UInt8}
    {boundary : Boundary} (h : d.boundary? (byte :: bytes) = some (boundary, rest)) :
    rest.length ≤ bytes.length := by
  have terminates := List.length_pos_iff.2 d.terminator.bytes_ne_nil
  unfold Dialect.boundary? at h
  split at h
  · cases h
    simp
  · split at h
    · cases h
      simp only [List.length_drop, List.length_cons]
      omega
    · cases h

theorem length_of_cut {d : Dialect} {quoted : Bool} {bytes rest : List UInt8}
    {boundary : Boundary} (h : (cut d quoted bytes).2 = some (boundary, rest)) :
    rest.length < bytes.length := by
  fun_induction cut d quoted bytes with
  | case1 => cases h
  | case2 quoted byte bytes found starts =>
    cases h
    cases quoted with
    | true => cases starts
    | false => exact Nat.lt_succ_of_le (length_of_boundary? starts)
  | case3 quoted byte bytes inner after ih => exact Nat.lt_succ_of_lt (ih h)

/-- The fields of the records that the bytes are. -/
def read (d : Dialect) (bytes : List UInt8) : List (List (List UInt8)) :=
  if bytes.isEmpty then []
  else
    let part := unquote (cut d false bytes).1
    match _ : (cut d false bytes).2 with
    | none => [[part]]
    | some (.record, rest) => [part] :: read d rest
    | some (.field, rest) =>
      match read d rest with
      | fields :: records => (part :: fields) :: records
      | [] => [[part, []]]
termination_by bytes.length
decreasing_by all_goals exact length_of_cut ‹_›

/-! ## Boundaries -/

/-- Delimiter, terminator and quotation mark can be told apart. -/
structure Dialect.Separable (d : Dialect) : Prop where
  delimiter_ne_quote : d.delimiter ≠ quote
  quote_not_mem : quote ∉ d.terminator.bytes
  delimiter_not_mem : d.delimiter ∉ d.terminator.bytes

theorem Terminator.bytes_subset_reserved (t : Terminator) : t.bytes ⊆ t.reserved := by
  cases t with
  | crlf => decide
  | byte value =>
    rw [bytes, List.cons_subset, reserved]
    refine ⟨?_, List.nil_subset _⟩
    split
    · rename_i lineBreak
      rcases lineBreak with rfl | rfl <;> decide
    · exact List.mem_singleton_self _

/-- A byte that neither delimits nor terminates starts no boundary. -/
theorem boundary?_eq_none {d : Dialect} {byte : UInt8} (rest : List UInt8)
    (delimits : byte ≠ d.delimiter) (terminates : byte ∉ d.terminator.bytes) :
    d.boundary? (byte :: rest) = none := by
  have noTerminator : ¬ d.terminator.bytes <+: byte :: rest := by
    rintro ⟨after, same⟩
    cases starts : d.terminator.bytes with
    | nil => exact d.terminator.bytes_ne_nil starts
    | cons first more =>
      rw [starts] at same terminates
      cases same
      exact terminates List.mem_cons_self
  rw [Dialect.boundary?, if_neg (by simpa using delimits), if_neg noTerminator]

theorem boundary?_delimiter (d : Dialect) (rest : List UInt8) :
    d.boundary? (d.delimiter :: rest) = some (.field, rest) :=
  if_pos rfl

namespace Dialect.Separable

variable {d : Dialect} (separable : d.Separable)
include separable

theorem boundary?_terminator (rest : List UInt8) :
    d.boundary? (d.terminator.bytes ++ rest) = some (.record, rest) := by
  have noDelimiter : (d.terminator.bytes ++ rest).head? ≠ some d.delimiter := by
    cases starts : d.terminator.bytes with
    | nil => exact absurd starts d.terminator.bytes_ne_nil
    | cons first more =>
      intro same
      cases same
      exact separable.delimiter_not_mem (starts ▸ List.mem_cons_self)
  rw [boundary?, if_neg noDelimiter, if_pos (List.prefix_append _ _), List.drop_left]

theorem boundary?_quote (rest : List UInt8) : d.boundary? (quote :: rest) = none :=
  boundary?_eq_none rest separable.delimiter_ne_quote.symm separable.quote_not_mem

end Dialect.Separable

/-! ## One field -/

/-- The bytes with each quotation mark twice. -/
def doubled (bytes : List UInt8) : List UInt8 :=
  bytes.flatMap fun byte => if byte = quote then [quote, quote] else [byte]

theorem doubled_quote (bytes : List UInt8) :
    doubled (quote :: bytes) = quote :: quote :: doubled bytes := by
  simp [doubled]

theorem doubled_cons {byte : UInt8} (other : byte ≠ quote) (bytes : List UInt8) :
    doubled (byte :: bytes) = byte :: doubled bytes := by
  simp [doubled, other]

/-- A field is written as it is if it has no byte with a meaning of its own. -/
theorem field_eq_self {d : Dialect} {bytes : List UInt8}
    (plain : ∀ byte ∈ bytes, d.special byte = false) : field d bytes = bytes := by
  rw [field, if_neg]
  simpa using plain

theorem field_eq_quoted {d : Dialect} {bytes : List UInt8} {byte : UInt8} (mem : byte ∈ bytes)
    (special : d.special byte = true) : field d bytes = quote :: (doubled bytes ++ [quote]) := by
  rw [field, if_pos (List.any_eq_true.2 ⟨byte, mem, special⟩)]
  rfl

/-- Every field is written in one of the two ways. -/
theorem field_cases (d : Dialect) (bytes : List UInt8) :
    (∀ byte ∈ bytes, d.special byte = false) ∧ field d bytes = bytes ∨
      field d bytes = quote :: (doubled bytes ++ [quote]) := by
  by_cases h : ∃ byte ∈ bytes, d.special byte = true
  · obtain ⟨byte, mem, special⟩ := h
    exact .inr (field_eq_quoted mem special)
  · have plain : ∀ byte ∈ bytes, d.special byte = false := by simpa using h
    exact .inl ⟨plain, field_eq_self plain⟩

/-- A byte without a meaning of its own is neither a quotation mark nor part of a boundary. -/
theorem ne_of_special_eq_false {d : Dialect} {byte : UInt8} (plain : d.special byte = false) :
    byte ≠ d.delimiter ∧ byte ≠ quote ∧ byte ∉ d.terminator.bytes := by
  simp only [Dialect.special, Bool.or_eq_false_iff, beq_eq_false_iff_ne] at plain
  obtain ⟨⟨delimits, marks⟩, reserved⟩ := plain
  refine ⟨delimits, marks, fun terminates => ?_⟩
  have mem := d.terminator.bytes_subset_reserved terminates
  rw [← List.contains_iff_mem, reserved] at mem
  cases mem

theorem halve_cons {byte : UInt8} (other : byte ≠ quote) (bytes : List UInt8) :
    halve (byte :: bytes) = byte :: halve bytes := by
  cases bytes with
  | nil => rfl
  | cons second rest => rw [halve, if_neg fun both => other both.1]

theorem halve_doubled (bytes : List UInt8) : halve (doubled bytes) = bytes := by
  induction bytes with
  | nil => rfl
  | cons byte bytes ih =>
    by_cases mark : byte = quote
    · rw [mark, doubled_quote, halve, if_pos ⟨rfl, rfl⟩, ih]
    · rw [doubled_cons mark, halve_cons mark, ih]

theorem unquote_field (d : Dialect) (bytes : List UInt8) : unquote (field d bytes) = bytes := by
  rcases field_cases d bytes with ⟨plain, same⟩ | quoted
  · rw [same]
    cases bytes with
    | nil => rfl
    | cons byte rest =>
      have noMark := (ne_of_special_eq_false (plain byte List.mem_cons_self)).2.1
      exact if_neg fun marks => noMark marks.1
  · rw [quoted, unquote, if_pos ⟨rfl, List.getLast?_concat⟩, List.dropLast_concat, halve_doubled]

/-- A byte belongs to the part if it is inside quotation marks or starts no boundary. -/
theorem cut_cons {d : Dialect} {quoted : Bool} {byte : UInt8} {rest : List UInt8}
    (inner : quoted = false → d.boundary? (byte :: rest) = none) :
    cut d quoted (byte :: rest) =
      (byte :: (cut d (quoted ^^ byte == quote) rest).1,
        (cut d (quoted ^^ byte == quote) rest).2) := by
  cases quoted with
  | false => simp only [cut, inner rfl, Bool.false_eq_true, if_false]
  | true => simp only [cut, if_true]

/-- A boundary outside quotation marks ends the part. -/
theorem cut_boundary {d : Dialect} {bytes rest : List UInt8} {boundary : Boundary}
    (starts : d.boundary? bytes = some (boundary, rest)) (nonempty : bytes ≠ []) :
    cut d false bytes = ([], some (boundary, rest)) := by
  cases bytes with
  | nil => exact absurd rfl nonempty
  | cons byte bytes => simp only [cut, starts, Bool.false_eq_true, if_false]

/-- Plain bytes all belong to the part. -/
theorem cut_plain {d : Dialect} {bytes : List UInt8}
    (plain : ∀ byte ∈ bytes, d.special byte = false) (rest : List UInt8) :
    cut d false (bytes ++ rest) = (bytes ++ (cut d false rest).1, (cut d false rest).2) := by
  induction bytes with
  | nil => rfl
  | cons byte bytes ih =>
    obtain ⟨delimits, marks, terminates⟩ :=
      ne_of_special_eq_false (plain byte List.mem_cons_self)
    have inner := boundary?_eq_none (bytes ++ rest) delimits terminates
    have outside : (false ^^ byte == quote) = false := by simp [marks]
    rw [List.cons_append, cut_cons fun _ => inner, outside,
      ih fun other mem => plain other (List.mem_cons_of_mem _ mem)]
    rfl

/-- Two quotation marks inside others leave the reader inside. -/
theorem cut_doubled {d : Dialect} (separable : d.Separable) (bytes rest : List UInt8) :
    cut d true (doubled bytes ++ rest) =
      (doubled bytes ++ (cut d true rest).1, (cut d true rest).2) := by
  induction bytes with
  | nil => rfl
  | cons byte bytes ih =>
    by_cases mark : byte = quote
    · have second := separable.boundary?_quote (doubled bytes ++ rest)
      have between : (true ^^ quote == quote) = false := rfl
      rw [mark, doubled_quote, List.cons_append, List.cons_append,
        cut_cons fun inside => absurd inside (by decide), between, cut_cons fun _ => second]
      simp [ih]
    · have inside : (true ^^ byte == quote) = true := by simp [mark]
      rw [doubled_cons mark, List.cons_append, cut_cons fun inside => absurd inside (by decide),
        inside, ih]
      rfl

/-- The first boundary after a written field is the one that follows it. -/
theorem cut_field {d : Dialect} (separable : d.Separable) (bytes : List UInt8)
    {after rest : List UInt8} {boundary : Boundary} (nonempty : after ≠ [])
    (follows : d.boundary? after = some (boundary, rest)) :
    cut d false (field d bytes ++ after) = (field d bytes, some (boundary, rest)) := by
  have ends := cut_boundary follows nonempty
  rcases field_cases d bytes with ⟨plain, same⟩ | quoted
  · rw [same, cut_plain plain, ends, List.append_nil]
  · have opens := separable.boundary?_quote (doubled bytes ++ [quote] ++ after)
    rw [quoted, List.cons_append, cut_cons fun _ => opens]
    have inside : (false ^^ quote == quote) = true := rfl
    have closes : cut d true (quote :: after) = ([quote], some (boundary, rest)) := by
      rw [cut_cons fun inside => absurd inside (by decide)]
      simp [ends]
    rw [inside, List.append_assoc, cut_doubled separable, List.singleton_append, closes]

/-! ## Records -/

theorem read_nil (d : Dialect) : read d [] = [] := by
  rw [read]
  rfl

section Records

variable {d : Dialect} (separable : d.Separable)
include separable

/-- A field that a terminator follows is the last of its record. -/
theorem read_field_terminator (bytes rest : List UInt8) :
    read d (field d bytes ++ (d.terminator.bytes ++ rest)) = [bytes] :: read d rest := by
  have nonempty : d.terminator.bytes ++ rest ≠ [] := by simp [d.terminator.bytes_ne_nil]
  have ends := cut_field separable bytes nonempty (separable.boundary?_terminator rest)
  rw [read, if_neg (by simp [nonempty])]
  split
  · rename_i found
    rw [ends] at found
    cases found
  · rename_i found
    rw [ends] at found
    cases found
    rw [ends, unquote_field]
  · rename_i found
    rw [ends] at found
    cases found

/-- A field that a delimiter follows is in the record of the next one. -/
theorem read_field_delimiter (bytes rest : List UInt8) {fields : List (List UInt8)}
    {records : List (List (List UInt8))} (next : read d rest = fields :: records) :
    read d (field d bytes ++ d.delimiter :: rest) = (bytes :: fields) :: records := by
  have ends := cut_field separable bytes (List.cons_ne_nil _ _) (boundary?_delimiter d rest)
  rw [read, if_neg (by simp)]
  split
  · rename_i found
    rw [ends] at found
    cases found
  · rename_i found
    rw [ends] at found
    cases found
  · rename_i found
    rw [ends] at found
    cases found
    rw [next, ends, unquote_field]

theorem read_record {fields : List (List UInt8)} (nonempty : fields ≠ []) (rest : List UInt8) :
    read d (record d fields ++ rest) = fields :: read d rest := by
  induction fields with
  | nil => exact absurd rfl nonempty
  | cons bytes fields ih =>
    cases fields with
    | nil => simp [record, read_field_terminator separable]
    | cons next more =>
      have later := ih (List.cons_ne_nil _ _)
      rw [record, List.map_cons, List.map_cons, List.intercalate_cons_cons]
      rw [record, List.map_cons] at later
      simpa using read_field_delimiter separable bytes _ later

/-- Reading gives back the fields of the records that were written. -/
theorem read_records {records : List (List (List UInt8))}
    (nonempty : ∀ fields ∈ records, fields ≠ []) :
    read d (records.flatMap (record d)) = records := by
  induction records with
  | nil => exact read_nil d
  | cons fields records ih =>
    rw [List.flatMap_cons, read_record separable (nonempty fields List.mem_cons_self),
      ih fun others mem => nonempty others (List.mem_cons_of_mem _ mem)]

end Records

end Propositional.Csv
