import BimAudit.Audit.Report
import BimAudit.Decimal.Notation
import BimAudit.Export.SheetName

/-!
# Tables of results

A report as tables: one for every model and document, with a row for every finding, and one with a
row of totals for every model and document.
-/

namespace BimAudit.Export

open Audit

/-- The names of the columns of a table of findings. -/
def resultColumns : List String :=
  ["Specification", "Entity Type", "Entity Name", "GUID", "Status", "Validation Type",
    "Validation Message", "Details"]

/-- The names of the columns of the table of totals. -/
def summaryColumns : List String :=
  ["IFC File", "IDS File", "Total", "Passed", "Failed", "Pass Rate"]

/-- What the rows of an entity begin with. -/
def entityCells (specification : String) (e : EntityResult) : List String :=
  [specification, e.entityType, e.name, e.guid]

/-- The row of a finding. -/
def findingRow (specification : String) (e : EntityResult) (f : Finding) : List String :=
  entityCells specification e ++ [f.status.name, f.kind.name, f.message, f.details]

/-- The rows of an entity: one for every finding, or one with its status if there are none. -/
def entityRows (specification : String) (e : EntityResult) : List (List String) :=
  if e.findings.isEmpty then [entityCells specification e ++ [e.status.name, "", "", ""]]
  else e.findings.map (findingRow specification e)

/-- The rows of a specification. -/
def specificationRows (s : SpecificationResult) : List (List String) :=
  s.entities.flatMap (entityRows s.specification)

/-- The rows of a model. -/
def resultRows (f : FileResult) : List (List String) := f.specifications.flatMap specificationRows

/-- A table of findings: the results of a model against a document, under a name if there is one. -/
structure ResultTable extends Pair where
  name : Except Shortage String

/-- The tables of findings, document by document. -/
def resultTables (r : Report) : List ResultTable :=
  r.pairs.zipWith (fun p name => ⟨p, name⟩)
    (sheetNames [] (r.pairs.map fun p => (p.file.fileName, p.document)))

/-- The row of totals of a table. -/
def summaryRow (t : ResultTable) : List String :=
  let s := t.file.summary
  [t.file.fileName, t.document, toString s.total, toString s.passed, toString s.failed,
    Decimal.fixed 1 s.passRate ++ "%"]

end BimAudit.Export
