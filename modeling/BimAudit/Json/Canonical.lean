import BimAudit.Dictionary
import BimAudit.Json.Basic

/-!
# Canonical JSON values

In a canonical value the members of every object have different names and stand in the order of
their names.
-/

namespace BimAudit.Json

/-- Members in the order of their names. Of several with the same name the last one counts. -/
def sorted {α : Type} (members : List (String × α)) : List (String × α) :=
  (Dictionary.ofList members).entries.mergeSort fun a b => a.1 ≤ b.1

mutual

/-- The value with the members of every object sorted. -/
def canonical : Json → Json
  | array items => array (canonicalItems items)
  | object members => object (sorted (canonicalMembers members))
  | null => null
  | void => void
  | bool b => bool b
  | number n => number n
  | string s => string s

/-- The items of an array with all members in them sorted. -/
def canonicalItems : List Json → List Json
  | [] => []
  | j :: js => j.canonical :: canonicalItems js

/-- The members of an object with all members in them sorted. -/
def canonicalMembers : List (String × Json) → List (String × Json)
  | [] => []
  | (n, j) :: ms => (n, j.canonical) :: canonicalMembers ms

end

end BimAudit.Json
