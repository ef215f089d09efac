import BimAudit.Step.Record

/-!
# Writing records

The plain written form of values and records. Which values it can be read back from is
`Value.WellFormed`: numbers are number literals without blanks, names are word characters, ids
are 64-bit words and types are named in upper case.
-/

namespace BimAudit.Step

/-- The pieces with commas between them. -/
def commaSeparated : List (List Char) → List Char
  | [] => []
  | [p] => p
  | p :: ps => p ++ ',' :: commaSeparated ps

namespace Value

mutual

/-- A value in its plain written form. -/
def write : Value → List Char
  | string s => '\'' :: encode s.toList ++ ['\'']
  | number s => s.toList
  | enum name => '.' :: name.toList ++ ['.']
  | .reference id => '#' :: Nat.toDigits 10 id
  | list items => '(' :: commaSeparated (writeAll items) ++ [')']
  | typed type inner => type.toList ++ '(' :: inner.write ++ [')']
  | null => ['$']
  | derived => ['*']

/-- The plain written forms of several values. -/
def writeAll : List Value → List (List Char)
  | [] => []
  | v :: vs => v.write :: writeAll vs

end

/-- A type name: upper-case letters, digits and underscores, at least one. -/
def IsTypeName (s : List Char) : Prop :=
  s ≠ [] ∧ ∀ c ∈ s, Text.isWordChar c = true ∧ c.toUpper = c

instance (s : List Char) : Decidable (IsTypeName s) :=
  decidable_of_iff (s ≠ [] ∧ s.all (fun c => Text.isWordChar c && c.toUpper = c) = true) <| by
    simp only [IsTypeName, List.all_eq_true, Bool.and_eq_true, decide_eq_true_eq]

mutual

/-- The value can be told from its plain written form. -/
def WellFormed : Value → Prop
  | string _ => True
  | number s => Text.trim s.toList = s.toList ∧ Decimal.isNumber s.toList = true
  | enum name => ∀ c ∈ name.toList, Text.isWordChar c = true
  | .reference id => id < Text.wordLimit
  | list items => AllWellFormed items
  | typed type inner => IsTypeName type.toList ∧ inner.WellFormed
  | null => True
  | derived => True

/-- Every member can be told from its plain written form. -/
def AllWellFormed : List Value → Prop
  | [] => True
  | v :: vs => v.WellFormed ∧ AllWellFormed vs

end

/-- The values of a parameter text in its plain written form. -/
def writeParameters (vs : List Value) : List Char := commaSeparated (writeAll vs)

end Value

/-- A record in its plain written form, on one line. -/
def Record.write (r : Record) : List Char :=
  '#' :: Nat.toDigits 10 r.id ++ '=' :: r.type.toList ++ '(' :: r.parameters ++ [')', ';']

end BimAudit.Step
