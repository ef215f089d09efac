import BimAudit.Audit.Check
import BimAudit.Ids.Document

/-!
# Auditing entities against a specification

A specification applies to the entities of which all conditions of its applicability hold. Each of
them is checked against every requirement; results keep the order of the entities, and findings the
order of the requirements.

* `validate?`: the result for a list of entities.
-/

namespace BimAudit.Audit

open Ids (Specification)

/-- The specification applies to an entity. -/
def appliesTo (s : Specification) (e : Ifc.Entity) : Bool :=
  s.applicability.all (·.condition.holds e)

/-- The result of an entity that a specification applies to. -/
def entityResult (strict : Bool) (s : Specification) (e : Ifc.Entity) : EntityResult :=
  .ofFindings e s.name (s.requirements.map (check strict e))

/-- The result of a specification for the entities that it applies to. -/
def resultFor? (strict : Bool) (s : Specification) (applicable : List Ifc.Entity) :
    Option SpecificationResult :=
  SpecificationResult.ofEntities? s.name (applicable.map (entityResult strict s))

/-- The positions of the entities that a specification applies to. -/
def applicablePositions (s : Specification) (es : List Ifc.Entity) : List Nat :=
  (es.zipIdx.filter fun e => appliesTo s e.1).map (·.2)

/-- The result of a specification for the entities at some positions; positions behind the end do
not count. -/
def validateAt? (strict : Bool) (es : List Ifc.Entity) (positions : List Nat) (s : Specification) :
    Option SpecificationResult :=
  let es := es.toArray
  resultFor? strict s (positions.filterMap (es[·]?))

/-- The result of a specification for a list of entities; there is none if it applies to none of
them. -/
def validate? (strict : Bool) (es : List Ifc.Entity) (s : Specification) :
    Option SpecificationResult :=
  resultFor? strict s (es.filter (appliesTo s))

end BimAudit.Audit
