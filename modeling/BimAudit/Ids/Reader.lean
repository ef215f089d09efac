import BimAudit.Ids.Document
import BimAudit.Xml.Element

/-!
# Reading documents from XML

The elements of a document are looked up by name, the first one counts, and what is not known is
ignored. A facet that lacks a name it needs gets an empty one, so that a check can report it.

* `Document.ofElement`: the document that a root element holds.
* `Document.ofXml`: the document in a text, or the fault in it.
-/

namespace BimAudit.Ids

open Xml (Element)

/-- What is wrong with a text that is to be a document. -/
inductive Fault where
  /-- It is not well-formed. -/
  | xml (fault : Xml.Fault)
  /-- The root element has another name. -/
  | wrongRoot (name : String)
deriving DecidableEq, Repr

/-- The fault in words; without words if it lies in the markup itself. -/
def Fault.message? (f : Fault) : Option String :=
  let words := match f with
    | xml .malformed => none
    | xml .contentAfterRoot => some "content after the root element"
    | xml (.unclosed name) => some ("unclosed element <" ++ name ++ ">")
    | xml .noRoot => some "document has no root element"
    | wrongRoot name => some ("expected <ids> root element, found <" ++ name ++ ">")
  words.map ("malformed IDS XML: " ++ ·)

/-- The value of an attribute without blanks around it; none if it is blank. -/
def attributeText? (e : Element) (name : String) : Option String :=
  ((e.attribute? name).map Text.strip).filter (!·.isEmpty)

/-- The value of a constraint: the attribute `value`, or else the text. -/
def constraintText (e : Element) : String := Text.strip ((e.attribute? "value").getD e.text)

/-- Reads a restriction of the schema: enumerations come first, then a pattern, then bounds, then
lengths. -/
def Value.ofRestriction? (e : Element) : Option Value :=
  let get (name : String) := (e.child? name).map constraintText
  let b : Bounds := ⟨get "minInclusive", get "maxInclusive", get "minExclusive", get "maxExclusive"⟩
  let l : LengthBounds := ⟨get "minLength", get "maxLength", get "length"⟩
  match (e.childrenNamed "enumeration").map constraintText with
  | o :: os => some (enumeration (o :: os))
  | [] =>
    match get "pattern" with
    | some r => some (pattern r)
    | none => if b ≠ {} then some (bounds b) else if l ≠ {} then some (length l) else none

/-- Reads a restriction from the element around it. -/
def Value.ofElement? (e : Element) : Option Value :=
  match e.child? "simpleValue" with
  | some s => some (simple (Text.strip s.text))
  | none => (e.child? "restriction").bind ofRestriction?

/-- Reads the restriction in a child. -/
def childValue? (e : Element) (name : String) : Option Value :=
  (e.child? name).bind Value.ofElement?

/-- A restriction that has to be there; an empty literal takes its place. -/
def needed (v : Option Value) : Value := v.getD (.simple "")

/-- Reads a condition. The name of a property may also be in an element `name`, and the type of a
whole directly in the element `entity`. -/
def Condition.ofElement (kind : FacetKind) (e : Element) : Condition :=
  let uri := attributeText? e "uri"
  match kind with
  | .entity => entity (needed (childValue? e "name")) (childValue? e "predefinedType")
  | .property => property (needed (childValue? e "propertySet"))
      (needed ((childValue? e "baseName").or (childValue? e "name"))) (childValue? e "value")
      (attributeText? e "dataType") uri
  | .attribute => .attribute (needed (childValue? e "name")) (childValue? e "value")
  | .classification => classification (childValue? e "system") (childValue? e "value") uri
  | .material => material (childValue? e "value") uri
  | .partOf => partOf
      (needed ((e.child? "entity").bind fun w => (childValue? w "name").or (Value.ofElement? w)))
      ((attributeText? e "relation").bind Relation.ofText?)

/-- Reads a facet, if the element is one. Only requirements have a cardinality of their own. -/
def Facet.ofElement? (isRequirement : Bool) (e : Element) : Option Facet :=
  (FacetKind.ofName? e.name).map fun kind =>
    { condition := .ofElement kind e
      cardinality :=
        if isRequirement then .ofText ((e.attribute? "cardinality").getD "") else .required
      instructions := attributeText? e "instructions" }

/-- Reads the facets in a child. -/
def facetsIn (e : Element) (name : String) (isRequirement : Bool) : List Facet :=
  match e.child? name with
  | some c => c.children.filterMap (Facet.ofElement? isRequirement)
  | none => []

/-- Reads a specification. -/
def Specification.ofElement (e : Element) : Specification where
  name := (e.attribute? "name").getD ""
  ifcVersion := (e.attribute? "ifcVersion").getD ""
  identifier := attributeText? e "identifier"
  description := attributeText? e "description"
  instructions := attributeText? e "instructions"
  applicability := facetsIn e "applicability" false
  requirements := facetsIn e "requirements" true

/-- Takes over the text of a field that is not blank. -/
def Info.addElement (i : Info) (e : Element) : Info :=
  let text := Text.strip e.text
  if text.isEmpty then i else i.set e.name text

/-- Reads a document from its root element. -/
def Document.ofElement (root : Element) : Except Fault Document :=
  if root.name ≠ "ids" then .error (.wrongRoot root.name)
  else
    .ok {
      info := match root.child? "info" with
        | some e => e.children.foldl Info.addElement {}
        | none => {}
      specifications := match root.child? "specifications" with
        | some e => (e.childrenNamed "specification").map Specification.ofElement
        | none => [] }

/-- Reads a document from its text. -/
def Document.ofXml (s : String) : Except Fault Document :=
  match Xml.read s with
  | .ok root => ofElement root
  | .error f => .error (.xml f)

end BimAudit.Ids
