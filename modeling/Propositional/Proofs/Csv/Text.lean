import Propositional.Proofs.Csv.Reading

/-!
# Records that are texts

If delimiter and terminator are ASCII, the records of texts are a text: the bytes between the
fields are characters of their own, and no byte of another character is a quotation mark, so
that doubling the marks leaves characters whole. If one of them is not ASCII, it stands alone
between ASCII fields, where no character can begin or end with it.

Results:
1. `mem_utf8EncodeChar_ascii`: an ASCII byte is no part of a longer character.
2. `isText_doubled`, `isText_field`: one field, in every dialect.
3. `Dialect.Ascii.isText_record`: one record, in an ASCII dialect.
4. `record_default`: a record that needs no quotation marks.
5. `IsText.split_ascii`: a text comes apart at each of its ASCII bytes.
6. `Dialect.ascii_of_isText_record`: a record of ASCII fields is a text in no other dialect.
-/

namespace Propositional.Csv

/-- The bytes are those of some characters. -/
def IsText (bytes : List UInt8) : Prop := ∃ text, bytes = encode text

theorem isText_encode (text : List Char) : IsText (encode text) := ⟨text, rfl⟩

theorem isText_nil : IsText [] := ⟨[], rfl⟩

theorem IsText.append {bytes others : List UInt8} (h : IsText bytes) (h' : IsText others) :
    IsText (bytes ++ others) := by
  obtain ⟨text, rfl⟩ := h
  obtain ⟨text', rfl⟩ := h'
  exact ⟨text ++ text', by simp [encode]⟩

theorem isText_flatMap {α : Type} {parts : List α} {bytes : α → List UInt8}
    (h : ∀ part ∈ parts, IsText (bytes part)) : IsText (parts.flatMap bytes) := by
  induction parts with
  | nil => exact isText_nil
  | cons part parts ih =>
    obtain ⟨first, others⟩ := List.forall_mem_cons.1 h
    rw [List.flatMap_cons]
    exact first.append (ih others)

/-! ## ASCII bytes -/

theorem utf8EncodeChar_ofNat {byte : UInt8} (ascii : byte < 128) :
    String.utf8EncodeChar (Char.ofNat byte.toNat) = [byte] := by
  have small : byte.toNat < 128 := UInt8.lt_iff_toNat_lt.1 ascii
  have valid : Nat.isValidChar byte.toNat := .inl (by omega)
  have code : (Char.ofNat byte.toNat).val.toNat = byte.toNat := by
    rw [Char.ofNat, dif_pos valid]
    rfl
  rw [String.utf8EncodeChar, code]
  simp [Nat.le_of_lt_succ small]

theorem isText_byte {byte : UInt8} (ascii : byte < 128) : IsText [byte] :=
  ⟨[Char.ofNat byte.toNat], by simp [encode, utf8EncodeChar_ofNat ascii]⟩

/-- Every byte of a longer character has its highest bit. -/
theorem le_of_mem_utf8EncodeChar {byte : UInt8} {c : Char} (long : 127 < c.val.toNat)
    (mem : byte ∈ String.utf8EncodeChar c) : 128 ≤ byte.toNat := by
  simp only [String.utf8EncodeChar, if_neg (Nat.not_le.2 long)] at mem
  split at mem
  · simp [← UInt8.toNat_inj] at mem
    omega
  split at mem
  all_goals
    simp [← UInt8.toNat_inj] at mem
    omega

theorem mem_utf8EncodeChar_ascii {byte : UInt8} {c : Char} (ascii : byte < 128)
    (mem : byte ∈ String.utf8EncodeChar c) : String.utf8EncodeChar c = [byte] := by
  by_cases long : 127 < c.val.toNat
  · have small := UInt8.lt_iff_toNat_lt.1 ascii
    exact absurd (le_of_mem_utf8EncodeChar long mem) (Nat.not_le.2 small)
  · have short := Nat.not_lt.1 long
    simp only [String.utf8EncodeChar, if_pos short] at mem ⊢
    rw [List.mem_singleton.1 mem]

/-- A character that is a single byte is the one with that number. -/
theorem toNat_of_utf8EncodeChar {byte : UInt8} {c : Char} (h : String.utf8EncodeChar c = [byte]) :
    byte < 128 ∧ c.toNat = byte.toNat := by
  have short : c.utf8Size = 1 := by rw [← String.length_utf8EncodeChar, h, List.length_singleton]
  rw [String.utf8EncodeChar_eq_singleton short] at h
  obtain ⟨rfl, -⟩ := List.cons.inj h
  have small : c.toNat ≤ 127 := UInt32.le_iff_toNat_le.1 (Char.utf8Size_eq_one_iff.1 short)
  have same : c.val.toUInt8.toNat = c.toNat := by
    rw [UInt32.toNat_toUInt8, Char.toNat_val]
    exact Nat.mod_eq_of_lt (by omega)
  rw [UInt8.lt_iff_toNat_lt, same]
  exact ⟨Nat.lt_succ_of_le small, rfl⟩

/-! ## Fields and records -/

theorem doubled_eq_self {bytes : List UInt8} (plain : quote ∉ bytes) : doubled bytes = bytes := by
  induction bytes with
  | nil => rfl
  | cons byte bytes ih =>
    obtain ⟨first, others⟩ := not_or.1 (mt List.mem_cons.2 plain)
    rw [doubled_cons (Ne.symm first), ih others]

/-- A quotation mark is a character of its own. -/
theorem isText_doubled_char (c : Char) : IsText (doubled (String.utf8EncodeChar c)) := by
  by_cases mark : quote ∈ String.utf8EncodeChar c
  · rw [mem_utf8EncodeChar_ascii (by decide) mark, doubled_quote]
    exact (isText_byte (by decide)).append (isText_byte (by decide))
  · rw [doubled_eq_self mark]
    exact ⟨[c], by simp [encode]⟩

theorem isText_doubled (text : List Char) : IsText (doubled (encode text)) := by
  rw [doubled, encode, List.flatMap_assoc]
  exact isText_flatMap fun c _ => isText_doubled_char c

theorem isText_field (d : Dialect) (text : List Char) : IsText (field d (encode text)) := by
  rcases field_cases d (encode text) with ⟨-, plain⟩ | quoted
  · rw [plain]
    exact isText_encode text
  · have mark : IsText [quote] := isText_byte (by decide)
    rw [quoted]
    exact mark.append ((isText_doubled text).append mark)

/-- The bytes between and after the fields are ASCII. -/
structure Dialect.Ascii (d : Dialect) : Prop where
  delimiter : d.delimiter < 128
  terminator : ∀ byte ∈ d.terminator.bytes, byte < 128

/-- Commas and line feeds are ASCII. -/
theorem ascii_default : Dialect.Ascii {} where
  delimiter := by decide
  terminator := by
    intro byte mem
    rw [List.mem_singleton.1 mem]
    decide

theorem isText_ascii {bytes : List UInt8} (ascii : ∀ byte ∈ bytes, byte < 128) : IsText bytes := by
  rw [← List.flatMap_singleton' bytes]
  exact isText_flatMap fun byte mem => isText_byte (ascii byte mem)

theorem isText_intercalate {separator : List UInt8} (between : IsText separator)
    {parts : List (List UInt8)} (h : ∀ part ∈ parts, IsText part) :
    IsText (separator.intercalate parts) := by
  induction parts with
  | nil => exact isText_nil
  | cons part parts ih =>
    obtain ⟨first, later⟩ := List.forall_mem_cons.1 h
    have others := ih later
    cases parts with
    | nil => simpa using first
    | cons second rest =>
      rw [List.intercalate_cons_cons]
      exact (first.append between).append others

/-- A record of texts is a text. -/
theorem Dialect.Ascii.isText_record {d : Dialect} (ascii : d.Ascii) (fields : List (List Char)) :
    IsText (record d (fields.map encode)) := by
  have cells : ∀ part ∈ (fields.map encode).map (field d), IsText part := by
    intro part mem
    simp only [List.map_map, List.mem_map, Function.comp_apply] at mem
    obtain ⟨text, -, rfl⟩ := mem
    exact isText_field d text
  have between := isText_byte ascii.delimiter
  exact (isText_intercalate between cells).append (isText_ascii ascii.terminator)

/-! ## Records without quotation marks -/

/-- The characters that mean something in a dialect of commas and line feeds. -/
theorem mem_of_special_default {byte : UInt8} {c : Char} (mem : byte ∈ String.utf8EncodeChar c)
    (special : Dialect.special {} byte = true) : c ∈ [',', '"', '\n', '\r'] := by
  have meaning (sign : Char) (ascii : byte < 128) (same : byte.toNat = sign.toNat) : c = sign := by
    have alone := mem_utf8EncodeChar_ascii ascii mem
    exact Char.toNat_inj.1 ((toNat_of_utf8EncodeChar alone).2.trans same)
  have number : byte = 44 ∨ byte = 34 ∨ byte = 10 ∨ byte = 13 := by
    simpa [Dialect.special, quote, Terminator.reserved, or_assoc] using special
  rcases number with rfl | rfl | rfl | rfl
  · simp [meaning ',' (by decide) rfl]
  · simp [meaning '"' (by decide) rfl]
  · simp [meaning '\n' (by decide) rfl]
  · simp [meaning '\r' (by decide) rfl]

theorem encode_append (text text' : List Char) :
    encode (text ++ text') = encode text ++ encode text' :=
  List.flatMap_append

theorem encode_intercalate (separator : List Char) (parts : List (List Char)) :
    encode (separator.intercalate parts) = (encode separator).intercalate (parts.map encode) := by
  induction parts with
  | nil => rfl
  | cons part parts ih =>
    cases parts with
    | nil => simp
    | cons second rest =>
      rw [List.intercalate_cons_cons, List.map_cons, List.map_cons, List.intercalate_cons_cons,
        ← List.map_cons, ← ih, encode_append, encode_append]

/-- A record of fields without commas, quotation marks and line breaks is written as it is. -/
theorem record_default {fields : List (List Char)}
    (plain : ∀ text ∈ fields, ∀ c ∈ text, c ∉ [',', '"', '\n', '\r']) :
    record {} (fields.map encode) = encode ([','].intercalate fields ++ ['\n']) := by
  have same : (fields.map encode).map (field {}) = fields.map encode := by
    rw [List.map_map]
    refine List.map_congr_left fun text mem => field_eq_self fun byte there => ?_
    obtain ⟨c, inside, part⟩ := List.mem_flatMap.1 there
    rw [Bool.eq_false_iff]
    exact fun special => plain text mem c inside (mem_of_special_default part special)
  rw [record, same, encode_append, encode_intercalate]
  rfl

/-! ## Taking a text apart -/

/-- An ASCII byte is a character of its own, so that what stands before it and what stands after
it are texts. -/
theorem IsText.split_ascii {before after : List UInt8} {byte : UInt8} (ascii : byte < 128)
    (h : IsText (before ++ byte :: after)) : IsText before ∧ IsText after := by
  obtain ⟨text, same⟩ := h
  induction text generalizing before with
  | nil => simp [encode] at same
  | cons c text ih =>
    have bytes : before ++ byte :: after = String.utf8EncodeChar c ++ encode text := same
    rcases List.append_eq_append_iff.1 bytes with ⟨part, char, rest⟩ | ⟨part, rfl, rest⟩
    · cases part with
      | nil =>
        obtain ⟨-, later⟩ := ih (show [] ++ byte :: after = encode text from rest)
        rw [List.append_nil] at char
        exact ⟨⟨[c], by simp [encode, char]⟩, later⟩
      | cons first others =>
        -- the byte lies in the first character, and so is all of it
        obtain ⟨rfl, rfl⟩ := List.cons.inj rest
        have alone := mem_utf8EncodeChar_ascii (c := c) ascii (by simp [char])
        rw [alone] at char
        obtain ⟨rfl, rfl⟩ : before = [] ∧ others = [] := by
          cases before with
          | nil => simpa using char.symm
          | cons => simp at char
        exact ⟨isText_nil, isText_encode text⟩
    · obtain ⟨earlier, later⟩ := ih rest.symm
      exact ⟨IsText.append ⟨[c], by simp [encode]⟩ earlier, later⟩

/-- The same for some ASCII bytes, if there is one at least. -/
theorem IsText.split_part {before part after : List UInt8} (nonempty : part ≠ [])
    (ascii : ∀ byte ∈ part, byte < 128) (h : IsText (before ++ part ++ after)) :
    IsText before ∧ IsText after := by
  constructor
  · obtain ⟨first, others, rfl⟩ := List.exists_cons_of_ne_nil nonempty
    rw [List.append_assoc] at h
    exact (h.split_ascii (ascii first List.mem_cons_self)).1
  · rw [← List.dropLast_concat_getLast nonempty, ← List.append_assoc, List.append_assoc _ [_]] at h
    exact (h.split_ascii (ascii _ (List.getLast_mem nonempty))).2

/-- A byte alone is a text only if it is ASCII. -/
theorem ascii_of_isText_singleton {byte : UInt8} (h : IsText [byte]) : byte < 128 := by
  obtain ⟨text, same⟩ := h
  cases text with
  | nil => cases same
  | cons c rest =>
    have bytes : [byte] = String.utf8EncodeChar c ++ encode rest := same
    have alone : String.utf8EncodeChar c = [byte] := by
      have length := congrArg List.length bytes
      have := c.utf8Size_pos
      rw [List.length_append, String.length_utf8EncodeChar, List.length_singleton] at length
      have none : encode rest = [] := List.length_eq_zero_iff.1 (by omega)
      rw [bytes, none, List.append_nil]
    exact (toNat_of_utf8EncodeChar alone).1

/-- Between ASCII parts, and after the last of them, stand texts. -/
theorem IsText.split_parts {separator : UInt8} {before after : List UInt8}
    {parts : List (List UInt8)} (some : parts ≠ [])
    (nonempty : ∀ part ∈ parts, part ≠ []) (ascii : ∀ part ∈ parts, ∀ byte ∈ part, byte < 128)
    (h : IsText (before ++ [separator].intercalate parts ++ after)) :
    (2 ≤ parts.length → separator < 128) ∧ IsText after := by
  induction parts generalizing before with
  | nil => contradiction
  | cons part parts ih =>
    obtain ⟨filled, others⟩ := List.forall_mem_cons.1 nonempty
    obtain ⟨asciiPart, asciiOthers⟩ := List.forall_mem_cons.1 ascii
    cases parts with
    | nil =>
      rw [List.intercalate_singleton] at h
      exact ⟨fun two => by simp at two, (h.split_part filled asciiPart).2⟩
    | cons second rest =>
      obtain ⟨filled', -⟩ := List.forall_mem_cons.1 others
      obtain ⟨ascii', -⟩ := List.forall_mem_cons.1 asciiOthers
      obtain ⟨more, starts⟩ :
          ∃ more, [separator].intercalate (second :: rest) = second ++ more := by
        cases rest <;> simp [List.intercalate_cons_cons]
      rw [List.intercalate_cons_cons] at h
      have later : IsText (before ++ part ++ [separator] ++
          [separator].intercalate (second :: rest) ++ after) := by
        simpa only [List.append_assoc] using h
      refine ⟨fun _ => ?_, (ih (List.cons_ne_nil _ _) others asciiOthers later).2⟩
      have between : IsText (before ++ part ++ ([separator] ++ second ++ (more ++ after))) := by
        simpa only [starts, List.append_assoc] using h
      have alone := (between.split_part filled asciiPart).2
      exact ascii_of_isText_singleton (alone.split_part filled' ascii').1

theorem ascii_doubled {bytes : List UInt8} (ascii : ∀ byte ∈ bytes, byte < 128) :
    ∀ byte ∈ doubled bytes, byte < 128 := by
  intro byte mem
  obtain ⟨original, there, copied⟩ := List.mem_flatMap.1 mem
  have same : byte = original := by
    split at copied <;> simp_all
  rw [same]
  exact ascii original there

/-- Quotation marks keep a field ASCII. -/
theorem ascii_field (d : Dialect) {bytes : List UInt8} (ascii : ∀ byte ∈ bytes, byte < 128) :
    ∀ byte ∈ field d bytes, byte < 128 := by
  rcases field_cases d bytes with ⟨-, plain⟩ | quoted
  · rwa [plain]
  · rw [quoted]
    simpa [quote, or_imp, forall_and] using ascii_doubled ascii

theorem field_ne_nil (d : Dialect) {bytes : List UInt8} (nonempty : bytes ≠ []) :
    field d bytes ≠ [] := by
  rcases field_cases d bytes with ⟨-, plain⟩ | quoted
  · rwa [plain]
  · simp [quoted]

/-- A record of ASCII fields, at least two of them, shows whether delimiter and terminator are
ASCII, whatever precedes it. -/
theorem Dialect.ascii_of_isText_record {d : Dialect} {before : List UInt8}
    {fields : List (List UInt8)} (two : 2 ≤ fields.length) (nonempty : ∀ bytes ∈ fields, bytes ≠ [])
    (ascii : ∀ bytes ∈ fields, ∀ byte ∈ bytes, byte < 128)
    (h : IsText (before ++ record d fields)) : d.Ascii := by
  have some : fields.map (field d) ≠ [] := by
    rintro none
    rw [List.map_eq_nil_iff.1 none] at two
    contradiction
  have filled : ∀ part ∈ fields.map (field d), part ≠ [] :=
    List.forall_mem_map.2 fun bytes mem => field_ne_nil d (nonempty bytes mem)
  have low : ∀ part ∈ fields.map (field d), ∀ byte ∈ part, byte < 128 :=
    List.forall_mem_map.2 fun bytes mem => ascii_field d (ascii bytes mem)
  rw [record, ← List.append_assoc] at h
  obtain ⟨delimiter, terminator⟩ := h.split_parts some filled low
  refine ⟨delimiter (by rwa [List.length_map]), ?_⟩
  cases ends : d.terminator with
  | crlf => simp [Terminator.bytes]
  | byte value =>
    rw [ends] at terminator
    simpa [Terminator.bytes] using ascii_of_isText_singleton terminator

/-- The two ways to end a record in an ASCII dialect. -/
theorem Dialect.ascii_iff {d : Dialect} :
    d.Ascii ↔ d.delimiter < 128 ∧
      (d.terminator = .crlf ∨ ∃ value < 128, d.terminator = .byte value) := by
  constructor
  · rintro ⟨delimiter, terminator⟩
    refine ⟨delimiter, ?_⟩
    cases ends : d.terminator with
    | crlf => exact .inl rfl
    | byte value =>
      rw [ends] at terminator
      exact .inr ⟨value, terminator value (List.mem_singleton_self _), rfl⟩
  · rintro ⟨delimiter, ends⟩
    refine ⟨delimiter, ?_⟩
    rcases ends with crlf | ⟨value, low, ends⟩
    · simp [crlf, Terminator.bytes]
    · simpa [ends, Terminator.bytes] using low

end Propositional.Csv
