import BimAudit.Unicode.Age
import BimAudit.Unicode.Boundary
import BimAudit.Unicode.SharedScript
import BimAudit.Text.Ascii

/-!
# Finding sets of characters by name

Names are compared without regard to case, blanks, underscores and hyphens, and without a leading
`is`. A name alone is a binary property, a general category or a script, in this order.
-/

namespace BimAudit.Unicode

/-- A character that does not count in names. -/
def isNameFiller (c : Char) : Bool := c = ' ' || c = '_' || c = '-' || 0x7F < c.toNat

/-- The form in which names are compared. -/
def plainName (s : List Char) : String :=
  let isIs := (s.take 2).map Char.toLower = ['i', 's']
  let letters := (if isIs then s.drop 2 else s).filter (!isNameFiller ·)
  let name := String.ofList (letters.map Char.toLower)
  if isIs ∧ name = "c" then "isc" else name

/-- The set with a name. -/
def named? (s : List Char) : Option CharSet :=
  let name := plainName s
  (property? name).or ((category? name).or (script? name))

/-- The characters whose property has a value. -/
def valued? (property value : List Char) : Option CharSet :=
  let value := plainName value
  match plainName property with
  | "generalcategory" | "gc" => category? value
  | "script" | "sc" => script? value
  | "scriptextensions" | "scx" => scriptUse? value
  | "age" => age? value
  | "graphemeclusterbreak" | "gcb" => clusterKind? value
  | "wordbreak" | "wb" => wordKind? value
  | "sentencebreak" | "sb" => sentenceKind? value
  | _ => none

end BimAudit.Unicode
