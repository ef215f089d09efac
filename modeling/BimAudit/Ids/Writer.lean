import BimAudit.Ids.Document
import BimAudit.Xml.Markup

/-!
# Writing documents as XML

Every restriction that is not a literal becomes a restriction of the XML schema. The cardinality is
written for requirements only, and not for the type of an entity.

* `Document.toMarkup`: the document as markup.
* `Document.toXml`: its text.
-/

namespace BimAudit.Ids

open Xml (Markup)

/-- The attributes that are present. -/
def attributesOf (as : List (String × Option String)) : List (String × String) :=
  as.filterMap fun a => a.2.map (a.1, ·)

/-- A restriction of the schema: its base and the constraints with their values. -/
def restriction (base : String) (constraints : List (String × String)) : Markup :=
  .block "xs:restriction" [("base", base)] (constraints.map fun c => .single c.1 [("value", c.2)])

/-- What is written inside the element of a restriction. -/
def Value.toMarkup : Value → Markup
  | simple s => .text "simpleValue" s
  | pattern r => restriction "xs:string" [("xs:pattern", r)]
  | enumeration os => restriction "xs:string" (os.map (("xs:enumeration", ·)))
  | bounds b => restriction "xs:decimal" (attributesOf [("xs:minInclusive", b.minInclusive),
      ("xs:minExclusive", b.minExclusive), ("xs:maxInclusive", b.maxInclusive),
      ("xs:maxExclusive", b.maxExclusive)])
  | length l => restriction "xs:string" (attributesOf [("xs:length", l.length),
      ("xs:minLength", l.minLength), ("xs:maxLength", l.maxLength)])

/-- A restriction in an element of its own. -/
def Value.named (name : String) (v : Value) : Markup := .block name [] [v.toMarkup]

/-- A restriction in an element of its own, if there is one. -/
def Value.namedIfAny (name : String) (v : Option Value) : List Markup := (v.map (named name)).toList

/-- The elements inside a facet. -/
def Condition.toMarkup : Condition → List Markup
  | entity name predefinedType =>
    name.named "name" :: Value.namedIfAny "predefinedType" predefinedType
  | property set name value _ _ =>
    set.named "propertySet" :: name.named "baseName" :: Value.namedIfAny "value" value
  | .attribute name value => name.named "name" :: Value.namedIfAny "value" value
  | classification system value _ =>
    Value.namedIfAny "value" value ++ Value.namedIfAny "system" system
  | material value _ => Value.namedIfAny "value" value
  | partOf whole _ => [.block "entity" [] [whole.named "name"]]

/-- The attributes of a facet: those of its condition, the cardinality, and those that lead on. -/
def Facet.attributes (isRequirement : Bool) (f : Facet) : List (String × String) :=
  let cardinality := if isRequirement ∧ f.kind ≠ .entity then some f.cardinality.name else none
  let (own, uri) : List (String × Option String) × Option String := match f.condition with
    | .property _ _ _ dataType uri => ([("dataType", dataType)], uri)
    | .partOf _ relation => ([("relation", relation.map Relation.name)], none)
    | .classification _ _ uri | .material _ uri => ([], uri)
    | _ => ([], none)
  attributesOf (own ++
    [("cardinality", cardinality), ("uri", uri), ("instructions", f.instructions)])

/-- The element of a facet. -/
def Facet.toMarkup (isRequirement : Bool) (f : Facet) : Markup :=
  .block f.kind.name (f.attributes isRequirement) f.condition.toMarkup

/-- The element of a specification. -/
def Specification.toMarkup (s : Specification) : Markup :=
  .block "specification"
    (attributesOf [("name", some s.name), ("ifcVersion", some s.ifcVersion),
      ("identifier", s.identifier), ("description", s.description),
      ("instructions", s.instructions), ("minOccurs", some "1"), ("maxOccurs", some "unbounded")])
    [.block "applicability" [] (s.applicability.map (Facet.toMarkup false)),
      .block "requirements" [] (s.requirements.map (Facet.toMarkup true))]

/-- The element of the information about a document. -/
def Info.toMarkup (i : Info) : Markup :=
  .block "info" [] ((attributesOf i.fields).map fun f => .text f.1 f.2)

/-- The namespace of the documents. -/
def idsNamespace : String := "http://standards.buildingsmart.org/IDS"

/-- The namespace of the XML schema. -/
def schemaNamespace : String := "http://www.w3.org/2001/XMLSchema"

/-- The root element of a document. -/
def Document.toMarkup (d : Document) : Markup :=
  .block "ids" [("xmlns", idsNamespace), ("xmlns:xs", schemaNamespace)]
    [d.info.toMarkup, .block "specifications" [] (d.specifications.map Specification.toMarkup)]

/-- The text of a document. -/
def Document.toXml (d : Document) : String := Markup.document d.toMarkup

end BimAudit.Ids
