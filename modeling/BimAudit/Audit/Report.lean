import BimAudit.Ids.Facet
import BimAudit.Ifc.Entity

/-!
# Reports

The results of an audit form a tree: a report holds a result for every document, this one for every
model, this one for every specification that applies to some entity, this one for every such entity,
and this one a finding for every requirement. An entity fails if a finding does, and a specification
fails if an entity does.

* `EntityResult.ofFindings`, `SpecificationResult.ofEntities?`: the aggregation.
* `Report.summary`: entity results counted over the whole report.
-/

namespace BimAudit.Audit

/-- Whether something satisfies what is asked of it. -/
inductive Status where
  | pass
  | fail
deriving DecidableEq, Repr

namespace Status

/-- Passes if the condition holds. -/
def ofBool (b : Bool) : Status := if b then pass else fail

/-- The word for the status. -/
def name : Status → String
  | pass => "pass"
  | fail => "fail"

end Status

/-- What was found when an entity was checked against a requirement. -/
structure Finding where
  kind : Ids.FacetKind
  status : Status
  /-- What is required. -/
  message : String
  /-- What was found. -/
  details : String
deriving DecidableEq, Repr

/-- What was found for an entity. -/
structure EntityResult where
  entityType : String
  name : String
  guid : String
  fileName : String
  specification : String
  status : Status
  findings : List Finding
deriving DecidableEq, Repr

/-- The result of an entity: it fails if a finding does. -/
def EntityResult.ofFindings (e : Ifc.Entity) (specification : String) (findings : List Finding) :
    EntityResult where
  entityType := e.type
  name := e.name
  guid := e.guid
  fileName := e.sourceFile
  specification
  status := .ofBool (findings.all (·.status = .pass))
  findings

/-- The results of the entities that a specification applies to. -/
structure SpecificationResult where
  specification : String
  status : Status
  passCount : Nat
  failCount : Nat
  entities : List EntityResult
deriving DecidableEq, Repr

/-- The number of entities that fail. -/
def failures (rs : List EntityResult) : Nat := (rs.filter (·.status = .fail)).length

/-- The result of a specification; there is none if it applies to no entity. -/
def SpecificationResult.ofEntities? (specification : String) (rs : List EntityResult) :
    Option SpecificationResult :=
  if rs.isEmpty then none
  else some {
    specification
    status := .ofBool (failures rs = 0)
    passCount := rs.length - failures rs
    failCount := failures rs
    entities := rs }

/-- The results of a model against a document. -/
structure FileResult where
  fileName : String
  entityCount : Nat
  specifications : List SpecificationResult
deriving DecidableEq, Repr

/-- The results of all models against a document. -/
structure DocumentResult where
  name : String
  files : List FileResult
deriving DecidableEq, Repr

/-- The results of an audit. -/
structure Report where
  documents : List DocumentResult := []
  /-- The audit was broken off. -/
  aborted : Bool := false
deriving DecidableEq, Repr

/-- A model of a report, with the name of the document that it was audited against. -/
structure Pair where
  document : String
  file : FileResult
deriving DecidableEq, Repr

/-- The models of a report, document by document. -/
def Report.pairs (r : Report) : List Pair :=
  r.documents.flatMap fun d => d.files.map fun f => ⟨d.name, f⟩

/-! ### Summaries -/

/-- Numbers of entity results. -/
structure Summary where
  total : Nat := 0
  passed : Nat := 0
  failed : Nat := 0
deriving DecidableEq, Repr

namespace Summary

instance : Add Summary where
  add a b := ⟨a.total + b.total, a.passed + b.passed, a.failed + b.failed⟩

/-- The sum of some summaries. -/
def sum (ss : List Summary) : Summary := ss.foldl (· + ·) {}

/-- The percentage of results that pass, zero if there are none. -/
def passRate (s : Summary) : Float :=
  if s.total = 0 then 0 else s.passed.toFloat / s.total.toFloat * 100

end Summary

/-- The summary of a specification. -/
def SpecificationResult.summary (r : SpecificationResult) : Summary :=
  ⟨r.entities.length, r.passCount, r.failCount⟩

/-- The summary of a model against a document. -/
def FileResult.summary (r : FileResult) : Summary :=
  .sum (r.specifications.map SpecificationResult.summary)

/-- The summary of a report. -/
def Report.summary (r : Report) : Summary :=
  .sum (r.pairs.map (·.file.summary))

end BimAudit.Audit
