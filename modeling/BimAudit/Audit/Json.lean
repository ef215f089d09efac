import BimAudit.Audit.Report
import BimAudit.Json.Basic

/-!
# Reports in JSON

Every result is an object with its fields in a fixed order.
-/

namespace BimAudit.Audit

/-- A finding in JSON. -/
def Finding.toJson (f : Finding) : Json :=
  .object [("type", .string f.kind.name), ("status", .string f.status.name),
    ("message", .string f.message), ("details", .string f.details)]

/-- The result of an entity in JSON. -/
def EntityResult.toJson (r : EntityResult) : Json :=
  .object [("entity_type", .string r.entityType), ("name", .string r.name),
    ("guid", .string r.guid), ("file_name", .string r.fileName),
    ("specification", .string r.specification), ("status", .string r.status.name),
    ("validations", .array (r.findings.map (·.toJson)))]

/-- The result of a specification in JSON. -/
def SpecificationResult.toJson (r : SpecificationResult) : Json :=
  .object [("specification", .string r.specification), ("status", .string r.status.name),
    ("pass_count", .nat r.passCount), ("fail_count", .nat r.failCount),
    ("entity_results", .array (r.entities.map (·.toJson)))]

/-- The results of a model in JSON. -/
def FileResult.toJson (r : FileResult) : Json :=
  .object [("file_name", .string r.fileName), ("entity_count", .nat r.entityCount),
    ("specification_results", .array (r.specifications.map (·.toJson)))]

/-- The results of a document in JSON. -/
def DocumentResult.toJson (r : DocumentResult) : Json :=
  .object [("ids_name", .string r.name), ("ifc_results", .array (r.files.map (·.toJson)))]

/-- A report in JSON. -/
def Report.toJson (r : Report) : Json :=
  .object [("ids_results", .array (r.documents.map (·.toJson))), ("aborted", .bool r.aborted)]

end BimAudit.Audit
