import BimAudit.Json.Basic
import BimAudit.Decimal.Notation
import BimAudit.Text.Numeral

/-!
# Writing JSON

Two layouts: on one line without blanks, and over several lines with two blanks per level. Strings
are written as they are but for quotes, backslashes and control characters.
-/

namespace BimAudit.Json

/-- The text of a number. -/
def Number.text : Number → String
  | .natural n => toString n
  | .negative n => "-" ++ toString n
  | .real x => if x.isNaN || x.isInf then "null" else Decimal.scientific x

/-- One character of a string. -/
def escapeChar (c : Char) : List Char :=
  if c = '"' then ['\\', '"']
  else if c = '\\' then ['\\', '\\']
  else if c = '\x08' then ['\\', 'b']
  else if c = '\x0c' then ['\\', 'f']
  else if c = '\n' then ['\\', 'n']
  else if c = '\r' then ['\\', 'r']
  else if c = '\t' then ['\\', 't']
  else if c < ' ' then ['\\', 'u'] ++ (Text.hexWritten 4 c.toNat).map Char.toLower
  else [c]

/-- A string in quotes. -/
def quote (s : String) : String := String.ofList ('"' :: s.toList.flatMap escapeChar ++ ['"'])

mutual

/-- The value on one line. -/
def compact : Json → String
  | null | void => "null"
  | bool b => if b then "true" else "false"
  | number n => n.text
  | string s => quote s
  | array items => "[" ++ ",".intercalate (compactItems items) ++ "]"
  | object members => "\x7b" ++ ",".intercalate (compactMembers members) ++ "\x7d"

/-- The items of an array, each on one line. -/
def compactItems : List Json → List String
  | [] => []
  | j :: js => j.compact :: compactItems js

/-- The members of an object, each on one line. -/
def compactMembers : List (String × Json) → List String
  | [] => []
  | (n, j) :: ms => (quote n ++ ":" ++ j.compact) :: compactMembers ms

end

/-- Parts on lines of their own between two brackets, the closing one indented by `depth` levels. -/
def block (depth : Nat) (opening closing : String) (parts : List String) : String :=
  let indent (n : Nat) := "\n" ++ String.ofList (List.replicate (2 * n) ' ')
  if parts.isEmpty then opening ++ closing
  else opening ++ indent (depth + 1) ++ ("," ++ indent (depth + 1)).intercalate parts
    ++ indent depth ++ closing

mutual

/-- The value over several lines, at a given level. -/
def prettyAt (depth : Nat) : Json → String
  | array items => block depth "[" "]" (prettyItems (depth + 1) items)
  | object members => block depth "\x7b" "\x7d" (prettyMembers (depth + 1) members)
  | null | void => "null"
  | bool b => if b then "true" else "false"
  | number n => n.text
  | string s => quote s

/-- The items of an array at a given level. -/
def prettyItems (depth : Nat) : List Json → List String
  | [] => []
  | j :: js => j.prettyAt depth :: prettyItems depth js

/-- The members of an object at a given level. -/
def prettyMembers (depth : Nat) : List (String × Json) → List String
  | [] => []
  | (n, j) :: ms => (quote n ++ ": " ++ j.prettyAt depth) :: prettyMembers depth ms

end

/-- The value over several lines. -/
def pretty (j : Json) : String := j.prettyAt 0

end BimAudit.Json
