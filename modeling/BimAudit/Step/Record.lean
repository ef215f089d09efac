import BimAudit.Step.Value

/-!
# Records

A data record is `#id=TYPE(parameters);`, with blanks around the id and at the ends. `Record.read?`
reads one, `startsRecord` only looks at how a line begins, and `schemaName?` reads the header line
that names the schema.
-/

namespace BimAudit.Step

/-- A data record; its parameters are kept as they were written. -/
structure Record where
  id : Nat
  /-- The type of the record in upper case. -/
  type : String
  parameters : List Char
deriving DecidableEq, Repr

/-- Splits at the first of the given characters, which is in neither part. -/
def splitAt? (c : Char) (s : List Char) : Option (List Char × List Char) :=
  match s.dropWhile (· ≠ c) with
  | [] => none
  | _ :: r => some (s.takeWhile (· ≠ c), r)

/-- The text without the given last character. -/
def dropLast? (c : Char) (s : List Char) : Option (List Char) :=
  if s.getLast? = some c then some s.dropLast else none

/-- What is left of the body behind the opening parenthesis once the end of the record is taken
away: a closing parenthesis and perhaps a semicolon. -/
def closeBody? (s : List Char) : Option (List Char) :=
  let s := Text.trimEnd s
  dropLast? ')' (Text.trimEnd ((dropLast? ';' s).getD s))

namespace Record

/-- Reads a data record. -/
def read? (line : List Char) : Option Record :=
  match Text.trim line with
  | '#' :: r => do
    let (id, r) ← splitAt? '=' r
    let id ← Text.wordDigits? (Text.trim id)
    let (type, body) ← splitAt? '(' (Text.trimStart r)
    if type ≠ [] ∧ type.all Text.isWordChar then
      (closeBody? body).map fun parameters => ⟨id, upperString type, parameters⟩
    else none
  | _ => none

/-- The values of the parameters. -/
def values (r : Record) : List Value := Value.readAll r.parameters

/-- The decoded string literals among the parameters, at any depth. -/
def strings (r : Record) : List String := (literals r.parameters).map String.ofList

/-- The ids that the parameters refer to, at any depth. -/
def links (r : Record) : List Nat := referencesIn r.parameters

end Record

/-- The line begins like a record: a number sign, digits, blanks, an equals sign. -/
def startsRecord : List Char → Bool
  | '#' :: r =>
    (r.head?.map Text.isDigit).getD false &&
      (Text.trimStart (r.dropWhile Text.isDigit)).head? = some '='
  | _ => false

/-- The schema that a header line names. -/
def schemaName? (line : List Char) : Option String :=
  let line := Text.trim line
  if "FILE_SCHEMA".toList.isPrefixOf line then
    (literals line).head?.map String.ofList
  else none

end BimAudit.Step
