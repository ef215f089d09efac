import BimAudit.Browser.State

/-!
# What a browser shows of its lists

Each list is shown in a panel of some height, through a window: the items from some place on, as
many as there is room for. The windows of tables move along with the selection.
-/

namespace BimAudit.Browser

open Audit

/-- The items of a list from a place on, as many as there is room for, each with its place. -/
def window {α : Type} (first room : Nat) (xs : List α) : List (α × Nat) :=
  (xs.zipIdx.drop first).take room

/-- The first place of a window that shows the selected place, with as little above it as can be. -/
def firstShown (selected room : Nat) : Nat := if room ≤ selected then selected - room + 1 else 0

/-- The rows of a table in a panel of some height: the border and the titles take three. -/
def tableRoom (height : Nat) : Nat := height - 3

/-- The number of items of two rows each in a panel of some height. -/
def listRoom (height : Nat) : Nat := (height - 2) / 2

variable (b : Browser) (height : Nat)

/-- The pairs in a panel of some height. -/
def shownPairs : List (Pair × Nat) := window 0 (listRoom height) b.report.pairs

/-- The specifications in a panel of some height. -/
def shownSpecifications : List (SpecificationResult × Nat) :=
  window (firstShown b.specification (tableRoom height)) (tableRoom height) b.specifications

/-- The entities in a panel of some height. -/
def shownEntities : List (EntityResult × Nat) :=
  window (firstShown b.entity (tableRoom height)) (tableRoom height) b.entities

/-- The findings in a panel of some height. -/
def shownFindings : List (Finding × Nat) := window b.scroll (tableRoom height) b.findings

end BimAudit.Browser
