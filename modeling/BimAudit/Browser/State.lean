import BimAudit.Audit.Report

/-!
# The state of a browser

A browser shows a report. Its dashboard has three panels: the pairs of documents and models, the
specifications of the selected pair, and the entities of the selected specification. From there the
findings of the selected entity can be opened. Selections are places in the lists that are shown.
-/

namespace BimAudit

open Audit

/-- What the whole screen shows. -/
inductive Browser.View where
  | dashboard
  /-- The findings of one entity. -/
  | detail
deriving DecidableEq, Repr

/-- The panels of the dashboard, from left to right. -/
inductive Browser.Panel where
  | files
  | specifications
  | entities
deriving DecidableEq, Repr

/-- A report with what is shown and selected of it. -/
structure Browser where
  report : Report
  view : Browser.View := .dashboard
  /-- The panel that keys work on. -/
  panel : Browser.Panel := .specifications
  pair : Nat := 0
  specification : Nat := 0
  entity : Nat := 0
  /-- Entities that pass are not shown. -/
  failuresOnly : Bool := false
  /-- The number of findings above the first one that is shown. -/
  scroll : Nat := 0
  /-- The browser was left. -/
  closed : Bool := false

namespace Browser

variable (b : Browser)

/-- The selected pair. -/
def selectedPair? : Option Pair := b.report.pairs[b.pair]?

/-- The specifications of the selected pair. -/
def specifications : List SpecificationResult :=
  (b.selectedPair?.map (·.file.specifications)).getD []

/-- The selected specification. -/
def selectedSpecification? : Option SpecificationResult := b.specifications[b.specification]?

/-- The entity is shown. -/
def shows (e : EntityResult) : Bool := !b.failuresOnly || e.status = .fail

/-- The entities of the selected specification that are shown. -/
def entities : List EntityResult :=
  ((b.selectedSpecification?.map (·.entities)).getD []).filter b.shows

/-- The selected entity. -/
def selectedEntity? : Option EntityResult := b.entities[b.entity]?

/-- The findings of the selected entity. -/
def findings : List Finding := (b.selectedEntity?.map (·.findings)).getD []

end Browser

end BimAudit
