import BimAudit.Audit.Lookup
import BimAudit.Audit.Report

/-!
# Checking entities against facets

A facet is used in two ways: a specification applies to an entity if the conditions of its
applicability hold, and an entity is checked against its requirements, which takes the cardinality
into account and says what was found. Classifications, materials and wholes are inspected by a
strict check only. Patterns may mean anything here.

* `Condition.holds`: a condition holds of an entity.
* `check`: a finding for an entity and a requirement.
-/

namespace BimAudit

open Audit (Lookup)
open Ids (Patterns)

variable [Patterns]

namespace Ids.Condition

/-- The condition does not say enough to be checked. -/
def isIncomplete : Condition → Bool
  | entity name _ => name.isEmpty
  | property set name .. => set.isEmpty || name.isEmpty
  | .attribute name _ => name.isEmpty
  | partOf whole _ => whole.isEmpty
  | classification .. | material .. => false

/-- The lookup has found an acceptable value. -/
def isFound : Lookup → Bool
  | .found _ => true
  | _ => false

/-- The condition holds of an entity. The predefined type of an entity does not count here. -/
def holds (e : Ifc.Entity) (c : Condition) : Bool :=
  !c.isIncomplete && match c with
    | entity name _ => name.acceptsIgnoringCase e.type
    | property set name value _ _ => isFound (Audit.lookupProperty e set name value)
    | .attribute name value => isFound (Audit.lookupAttribute e name value)
    | classification system value _ => e.classifications.any fun k =>
        system.all (·.accepts k.system) && value.all (·.accepts k.identification)
    | material none _ => !e.materials.isEmpty
    | material (some value) _ => e.materials.any value.accepts
    | partOf whole relation => e.parents.any fun p =>
        whole.acceptsIgnoringCase p.type && relation.all (·.accepts p.relation)

end Ids.Condition

namespace Audit

open Ids (Value Cardinality Condition Facet FacetKind)

/-- The message about a requirement that does not say enough. -/
def incomplete : String := "incomplete specification"

/-- A finding by its outcome. -/
def finding (kind : FacetKind) (ok : Bool) (message details : String) : Finding :=
  ⟨kind, .ofBool ok, message, details⟩

/-- Judges a lookup by the cardinality of the requirement. -/
def judge (kind : FacetKind) (message : String) (c : Cardinality) (l : Lookup) : Finding :=
  match c, l with
  | .required, .found d | .optional, .found d => finding kind true message d
  | .required, .absent d | .required, .mismatch d | .optional, .mismatch d =>
    finding kind false message d
  | .optional, .absent d => finding kind true message (d ++ " (optional)")
  | .prohibited, .found d => finding kind false message ("Prohibited but present. " ++ d)
  | .prohibited, .absent d | .prohibited, .mismatch d => finding kind true message d

/-- Checks the type of an entity, and its predefined type where one is asked for. -/
def checkType (e : Ifc.Entity) (name : Value) (predefined : Option Value) : Finding :=
  let message := "Entity type " ++ label name
  if name.isEmpty then finding .entity false incomplete "Entity name is missing"
  else if !name.acceptsIgnoringCase e.type then
    finding .entity false message
      ("Expected " ++ name.describe ++ ", got " ++ Value.quoted e.type)
  else
    match predefined with
    | none => finding .entity true message ("Type: " ++ Value.quoted e.type)
    | some p =>
      let message := message ++ " / " ++ label p
      let expected := "Expected predefined type " ++ p.describe
      match e.attributes.find? "PredefinedType" with
      | some actual =>
        if p.acceptsIgnoringCase actual then
          finding .entity true message ("Type: " ++ Value.quoted (e.type ++ "." ++ actual))
        else finding .entity false message (expected ++ ", got " ++ Value.quoted actual)
      | none => finding .entity false message (expected ++ ", none set")

/-- The text about the value that a requirement asks for. -/
def equals (value : Option Value) : String := (value.map fun v => " = " ++ v.describe).getD ""

/-- What a requirement about relations of an entity asks for. -/
def relationMessage : Condition → String
  | .classification system value _ =>
    let system := (system.map label).getD "any system"
    match value with
    | some v => "Classification " ++ label v ++ " in " ++ system
    | none => "Classification in " ++ system
  | .material (some v) _ => "Material " ++ label v
  | .material none _ => "Material"
  | .partOf whole (some r) => "Part of " ++ label whole ++ " via " ++ r.name
  | .partOf whole none => "Part of " ++ label whole
  | c => c.kind.name

/-- What an entity has of the kind that a condition asks for, one text each. -/
def relatedTexts (e : Ifc.Entity) : Condition → List String
  | .classification .. => e.classifications.map fun k => k.system ++ ":" ++ k.identification
  | .material .. => e.materials
  | _ => e.parents.map fun p => p.type ++ " (" ++ p.relation ++ ")"

/-- What an entity has of the kind that a condition asks for, in one text. -/
def relatedText (e : Ifc.Entity) (c : Condition) : String :=
  match relatedTexts e c with
  | [] => "none"
  | ts => ", ".intercalate ts

/-- Checks a classification, a material or a whole. -/
def checkRelated (e : Ifc.Entity) (c : Condition) (card : Cardinality) : Finding :=
  let kind := c.kind.name
  let found := relatedText e c
  let result (ok : Bool) (details : String) := finding c.kind ok (relationMessage c) details
  match card with
  | .required =>
    if c.holds e then result true found
    else result false ("No matching " ++ kind ++ " (found: " ++ found ++ ")")
  | .optional =>
    if c.holds e || (relatedTexts e c).isEmpty then result true found
    else result false (kind ++ " present but does not match (found: " ++ found ++ ")")
  | .prohibited =>
    if c.holds e then result false ("Prohibited " ++ kind ++ " present: " ++ found)
    else result true found

/-- Checks an entity against a requirement. Unless the check is strict, classifications, materials
and wholes are not inspected. -/
def check (strict : Bool) (e : Ifc.Entity) (f : Facet) : Finding :=
  match f.condition with
  | .entity name predefined => checkType e name predefined
  | .property set name value _ _ =>
    if f.condition.isIncomplete then
      finding .property false incomplete "Property set or property name is missing"
    else
      judge .property (label set ++ "." ++ label name ++ equals value) f.cardinality
        (lookupProperty e set name value)
  | .attribute name value =>
    if f.condition.isIncomplete then finding .attribute false incomplete "Attribute name is missing"
    else
      judge .attribute ("Attribute " ++ label name ++ equals value) f.cardinality
        (lookupAttribute e name value)
  | c =>
    if strict then checkRelated e c f.cardinality
    else
      finding c.kind true (relationMessage c)
        (c.kind.name ++ " requirement present; not validated against the model")

end Audit

end BimAudit
