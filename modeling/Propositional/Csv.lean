/-!
# Delimited records

Records are lines of bytes: fields with a delimiter between them and a terminator after
the last. A field that contains a byte with a meaning of its own is written in quotation
marks, and each quotation mark inside it twice. Delimiter and terminator are single bytes,
so a field of text is looked at byte by byte.
-/

namespace Propositional.Csv

/-- What ends a record. -/
inductive Terminator where
  | crlf
  | byte (value : UInt8)
deriving DecidableEq, Repr

/-- The bytes that end a record. -/
def Terminator.bytes : Terminator → List UInt8
  | .crlf => [13, 10]
  | .byte value => [value]

/-- The bytes that readers may take for the end of a record. Where a line break of any kind
ends a record, both of its bytes are among them. -/
def Terminator.reserved : Terminator → List UInt8
  | .crlf => [10, 13]
  | .byte value => if value = 10 ∨ value = 13 then [10, 13] else [value]

/-- How records are written. -/
structure Dialect where
  delimiter : UInt8 := 44
  terminator : Terminator := .byte 10
  /-- Whether the column titles are the first record. -/
  header : Bool := true
deriving DecidableEq, Repr

/-- The quotation mark. -/
def quote : UInt8 := 34

/-- Whether a byte has a meaning of its own. -/
def Dialect.special (d : Dialect) (byte : UInt8) : Bool :=
  byte == d.delimiter || byte == quote || d.terminator.reserved.contains byte

/-- The field as it is written. -/
def field (d : Dialect) (bytes : List UInt8) : List UInt8 :=
  if bytes.any d.special then
    [quote] ++ bytes.flatMap (fun byte => if byte = quote then [quote, quote] else [byte]) ++
      [quote]
  else bytes

/-- The record with its terminator. -/
def record (d : Dialect) (fields : List (List UInt8)) : List UInt8 :=
  [d.delimiter].intercalate (fields.map (field d)) ++ d.terminator.bytes

/-- The bytes of a text. -/
def encode (text : List Char) : List UInt8 := text.flatMap String.utf8EncodeChar

/-- The length of the longest part at the start that is a text. -/
def textLength (bytes : ByteArray) (start : Nat) : Nat :=
  if start < bytes.size then
    match bytes.utf8DecodeChar? start with
    | some c => textLength bytes (start + c.utf8Size)
    | none => start
  else start
termination_by bytes.size - start
decreasing_by
  have := c.utf8Size_pos
  omega

end Propositional.Csv
