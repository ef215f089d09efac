import BimAudit.Ids.Value
import BimAudit.Text.Pieces

/-!
# Restrictions in cells

A cell restricts a value in a short notation: a pattern behind `re:`, literals with bars between
them, two numbers with two points between them as bounds, one of which may be left out, and
everything else as a literal. An empty cell restricts nothing.
-/

namespace BimAudit.Workbook

/-- The texts in front of and behind the first place with two points. -/
def splitRange? (s : List Char) : Option (List Char × List Char) :=
  (Text.position? ['.', '.'] s).map fun n => (s.take n, s.drop (n + 2))

/-- The text of a bound: a number, or nothing. -/
def isBound (s : List Char) : Bool := s.isEmpty || Decimal.isNumber s

/-- A text, unless there is nothing in it. -/
def nonempty? (s : List Char) : Option String := if s.isEmpty then none else some (String.ofList s)

/-- Reads inclusive bounds, at least one of which has to be given. -/
def bounds? (s : List Char) : Option Ids.Bounds := do
  let (low, high) ← splitRange? s
  let low := Text.trim low
  let high := Text.trim high
  if (low.isEmpty && high.isEmpty) || !isBound low || !isBound high then none
  else some { minInclusive := nonempty? low, maxInclusive := nonempty? high }

/-- The literals between bars. -/
def options (s : List Char) : List String :=
  (((Text.pieces '|' s).map Text.trim).filter (!·.isEmpty)).map String.ofList

/-- The restriction in a cell without blanks around it. -/
def restrictionOf? (s : List Char) : Option Ids.Value :=
  if s.isEmpty then none
  else if "re:".toList.isPrefixOf s then some (.pattern (String.ofList (s.drop 3)))
  else if s.contains '|' then some (.enumeration (options s))
  else match bounds? s with
    | some b => some (.bounds b)
    | none => some (.simple (String.ofList s))

/-- The restriction in a cell. -/
def restriction? (cell : String) : Option Ids.Value := restrictionOf? (Text.trim cell.toList)

end BimAudit.Workbook
