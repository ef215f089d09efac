/-!
# Writing comma-separated values

A field is put in quotes, with each quote in it doubled, if it holds a comma, a quote or a line end;
other fields are written as they are. A record whose line would be empty is written as an empty
field in quotes.
-/

namespace BimAudit.Csv

/-- The field can only be written in quotes. -/
def needsQuotes (s : List Char) : Bool := s.any fun c => c = ',' || c = '"' || c = '\n' || c = '\r'

/-- The characters with each quote doubled. -/
def doubleQuotes (s : List Char) : List Char :=
  s.flatMap fun c => if c = '"' then ['"', '"'] else [c]

/-- A field as it is written. -/
def writeField (s : String) : String :=
  if needsQuotes s.toList then String.ofList ('"' :: doubleQuotes s.toList ++ ['"']) else s

/-- A record as it is written, with the end of its line. -/
def writeRecord (fields : List String) : String :=
  let line := ",".intercalate (fields.map writeField)
  (if line.isEmpty then "\"\"" else line) ++ "\n"

/-- Records as they are written. -/
def write (records : List (List String)) : String := String.join (records.map writeRecord)

end BimAudit.Csv
