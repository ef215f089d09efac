import BimAudit.Ids.Document
import BimAudit.Json.Basic

/-!
# Documents in JSON

The JSON form of restrictions, facets, specifications and documents. Restrictions and facets carry
their kind as the member `type`; absent values are left out of them. The readers ignore members that
they do not know and take null for an absent value.
-/

namespace BimAudit.Ids

/-! ### Writing -/

/-- The members that are present. -/
def present (ms : List (String × Option Json)) : List (String × Json) :=
  ms.filterMap fun m => m.2.map (m.1, ·)

/-- A string that may be absent. -/
def textMember (s : Option String) : Option Json := s.map .string

/-- The JSON form of a restriction. -/
def Value.toJson (v : Value) : Json :=
  .object (("type", .string v.kind) :: match v with
    | simple s => [("value", .string s)]
    | pattern r => [("regex", .string r)]
    | enumeration os => [("options", .array (os.map .string))]
    | bounds b => present [("minInclusive", textMember b.minInclusive),
        ("maxInclusive", textMember b.maxInclusive), ("minExclusive", textMember b.minExclusive),
        ("maxExclusive", textMember b.maxExclusive)]
    | length l => present [("minLength", textMember l.minLength),
        ("maxLength", textMember l.maxLength), ("length", textMember l.length)])

/-- The members of a condition. -/
def Condition.members : Condition → List (String × Json)
  | entity name predefinedType => present [("name", some name.toJson),
      ("predefinedType", predefinedType.map Value.toJson)]
  | property set name value dataType uri => present [("propertySet", some set.toJson),
      ("baseName", some name.toJson), ("value", value.map Value.toJson),
      ("dataType", textMember dataType), ("uri", textMember uri)]
  | .attribute name value => present [("name", some name.toJson), ("value", value.map Value.toJson)]
  | classification system value uri => present [("system", system.map Value.toJson),
      ("value", value.map Value.toJson), ("uri", textMember uri)]
  | material value uri => present [("value", value.map Value.toJson), ("uri", textMember uri)]
  | partOf whole relation => present [("entity", some whole.toJson),
      ("relation", relation.map fun r => .string r.name)]

/-- The JSON form of a facet. -/
def Facet.toJson (f : Facet) : Json :=
  .object (("type", .string f.kind.name) :: ("cardinality", .string f.cardinality.name)
    :: f.condition.members ++ present [("instructions", textMember f.instructions)])

/-- The JSON form of a specification. -/
def Specification.toJson (s : Specification) : Json :=
  .object [("name", .string s.name), ("ifcVersion", .string s.ifcVersion),
    ("identifier", .optional s.identifier), ("description", .optional s.description),
    ("instructions", .optional s.instructions),
    ("applicability", .array (s.applicability.map Facet.toJson)),
    ("requirements", .array (s.requirements.map Facet.toJson))]

/-- The JSON form of a document. -/
def Document.toJson (d : Document) : Json :=
  .object [("info", .object (d.info.fields.map fun f => (f.1, .optional f.2))),
    ("specifications", .array (d.specifications.map Specification.toJson))]

/-! ### Reading -/

/-- Reads a string that may be absent. -/
def text? : Json → Option (Option String) := Json.nullable? Json.string?

/-- The kinds of restrictions, in the order by which they can be told inside a facet. -/
def Value.kinds : List String := ["simple", "pattern", "enumeration", "bounds", "length"]

/-- Reads a restriction of a kind. -/
def Value.ofKind? (kind : String) (j : Json) : Option Value := do
  match kind with
  | "simple" =>
    let [value] ← j.record? ["value"] | none
    return simple (← value.string?)
  | "pattern" =>
    let [regex] ← j.record? ["regex"] | none
    return pattern (← regex.string?)
  | "enumeration" =>
    let [options] ← j.record? ["options"] | none
    return enumeration (← (← options.array?).mapM Json.string?)
  | "bounds" =>
    let [a, b, c, d] ← j.record? ["minInclusive", "maxInclusive", "minExclusive", "maxExclusive"]
      | none
    return bounds ⟨← text? a, ← text? b, ← text? c, ← text? d⟩
  | "length" =>
    let [a, b, c] ← j.record? ["minLength", "maxLength", "length"] | none
    return length ⟨← text? a, ← text? b, ← text? c⟩
  | _ => none

/-- Reads a restriction on its own. -/
def Value.ofJson? (j : Json) : Option Value := do
  let (kind, j) ← j.tagged? "type"
  ofKind? (← kind.string?) j

/-- Reads a restriction inside a facet, where its kind may also be given by a number. -/
def Value.ofMember? (j : Json) : Option Value := do
  let (kind, j) ← j.tagged? "type"
  ofKind? (← kind.nameOrPlace? kinds) j

/-- Reads a restriction inside a facet that may be absent. -/
def value? : Json → Option (Option Value) := Json.nullable? Value.ofMember?

/-- Reads a cardinality. -/
def Cardinality.ofJson? (j : Json) : Option Cardinality := do
  match ← j.choice? with
  | "required" => some required
  | "optional" => some optional
  | "prohibited" => some prohibited
  | _ => none

/-- Reads a relationship. -/
def Relation.ofJson? (j : Json) : Option Relation := j.choice?.bind ofName?

/-- Reads a facet. -/
def Facet.ofJson? (j : Json) : Option Facet := do
  let (kind, j) ← j.tagged? "type"
  match ← kind.string? with
  | "entity" =>
    let [name, type, card, instr] ←
      j.record? ["name", "predefinedType", "cardinality", "instructions"] | none
    return ⟨.entity (← Value.ofMember? name) (← value? type), ← Cardinality.ofJson? card,
      ← text? instr⟩
  | "property" =>
    let [set, name, value, dataType, card, uri, instr] ←
      j.record? ["propertySet", "baseName", "value", "dataType", "cardinality", "uri",
        "instructions"] | none
    return ⟨.property (← Value.ofMember? set) (← Value.ofMember? name) (← value? value)
      (← text? dataType) (← text? uri), ← Cardinality.ofJson? card, ← text? instr⟩
  | "attribute" =>
    let [name, value, card, instr] ←
      j.record? ["name", "value", "cardinality", "instructions"] | none
    return ⟨.attribute (← Value.ofMember? name) (← value? value), ← Cardinality.ofJson? card,
      ← text? instr⟩
  | "classification" =>
    let [system, value, card, uri, instr] ←
      j.record? ["system", "value", "cardinality", "uri", "instructions"] | none
    return ⟨.classification (← value? system) (← value? value) (← text? uri),
      ← Cardinality.ofJson? card, ← text? instr⟩
  | "material" =>
    let [value, card, uri, instr] ← j.record? ["value", "cardinality", "uri", "instructions"] | none
    return ⟨.material (← value? value) (← text? uri), ← Cardinality.ofJson? card, ← text? instr⟩
  | "partOf" =>
    let [whole, relation, card, instr] ←
      j.record? ["entity", "relation", "cardinality", "instructions"] | none
    return ⟨.partOf (← Value.ofMember? whole) (← Json.nullable? Relation.ofJson? relation),
      ← Cardinality.ofJson? card, ← text? instr⟩
  | _ => none

/-- Reads a specification. -/
def Specification.ofJson? (j : Json) : Option Specification := do
  let [name, version, identifier, description, instr, applicability, requirements] ←
    j.record? ["name", "ifcVersion", "identifier", "description", "instructions", "applicability",
      "requirements"] | none
  return ⟨← name.string?, ← version.string?, ← text? identifier, ← text? description, ← text? instr,
    ← (← applicability.array?).mapM Facet.ofJson?, ← (← requirements.array?).mapM Facet.ofJson?⟩

/-- Reads the information about a document. -/
def Info.ofJson? (j : Json) : Option Info := do
  let [a, b, c, d, e, f, g, h] ← j.record? Info.names | none
  return ⟨← text? a, ← text? b, ← text? c, ← text? d, ← text? e, ← text? f, ← text? g, ← text? h⟩

/-- Reads a document. -/
def Document.ofJson? (j : Json) : Option Document := do
  let [info, specifications] ← j.record? ["info", "specifications"] | none
  return ⟨← Info.ofJson? info, ← (← specifications.array?).mapM Specification.ofJson?⟩

end BimAudit.Ids
