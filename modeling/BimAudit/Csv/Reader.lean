/-!
# Reading comma-separated values

A text is a list of records, each on a line of its own, and a record is a list of fields between
commas. A field that begins with a quote goes on to the next single quote and may hold commas and
line ends; inside it, a quote is written twice. Lines without a field are no records. Nothing is
refused: a quote that is never closed goes on to the end of the text.

All marks are ASCII, so the text is read by bytes, and whether the bytes of a field are text is left
to the user of the field.
-/

namespace BimAudit.Csv

/-- The bytes of a field. -/
abbrev Field := List UInt8

/-- What a byte is for the structure of the text. -/
inductive Mark where
  | comma
  | quote
  | lineEnd
  | other
deriving DecidableEq, Repr

/-- The mark that a byte is. -/
def Mark.ofByte (b : UInt8) : Mark :=
  if b = 44 then comma
  else if b = 34 then quote
  else if b = 10 ∨ b = 13 then lineEnd
  else other

/-- Where a reader stands. -/
inductive Place where
  /-- In front of a record. -/
  | recordStart
  /-- In front of a field behind a comma. -/
  | fieldStart
  /-- In a field, outside of quotes. -/
  | plain
  /-- In a field, inside of quotes. -/
  | quoted
  /-- In a field, behind a quote that closes it or begins a written quote. -/
  | closing
deriving DecidableEq, Repr

/-- The records from a place on. The bytes of the field read so far and the fields in front of it
are given last first. -/
def recordsFrom : Place → Field → List Field → List UInt8 → List (List Field)
  | .recordStart, _, _, [] => []
  | _, field, fields, [] => [(field.reverse :: fields).reverse]
  | place, field, fields, b :: bs =>
    match place, Mark.ofByte b with
    | .recordStart, .lineEnd => recordsFrom .recordStart [] [] bs
    | .quoted, .quote => recordsFrom .closing field fields bs
    | .quoted, _ => recordsFrom .quoted (b :: field) fields bs
    | .closing, .quote => recordsFrom .quoted (b :: field) fields bs
    | .recordStart, .quote => recordsFrom .quoted field fields bs
    | .fieldStart, .quote => recordsFrom .quoted field fields bs
    | _, .comma => recordsFrom .fieldStart [] (field.reverse :: fields) bs
    | _, .lineEnd => (field.reverse :: fields).reverse :: recordsFrom .recordStart [] [] bs
    | _, _ => recordsFrom .plain (b :: field) fields bs

/-- Drops the byte order mark in front of a text. -/
def dropByteOrderMark : List UInt8 → List UInt8
  | 0xEF :: 0xBB :: 0xBF :: bs => bs
  | bs => bs

/-- The records of a text. -/
def records (bs : List UInt8) : List (List Field) :=
  recordsFrom .recordStart [] [] (dropByteOrderMark bs)

/-- The text of a field, if its bytes are text. -/
def text? (f : Field) : Option String := String.fromUTF8? ⟨f.toArray⟩

end BimAudit.Csv
