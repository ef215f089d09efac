import BimAudit.Ids.Document
import BimAudit.Workbook.Basic
import BimAudit.Workbook.Restriction

/-!
# The document in a workbook

The sheet `info` says in its first row what the document says about itself, and each row of
`specifications` is a specification with an id. A row of `applicability` adds a facet to the
specification that it names. The sheet `psets_lookup` lists the properties of property sets, and a
row of `element_psets` requires all properties of a property set in the specification that it names.
The first two sheets have to be there. A row that names something unknown is left out with a
warning.

* `Workbook.document?`: the document in a workbook, with the warnings.
-/

namespace BimAudit.Workbook

open Ids (Facet FacetKind Specification)

/-- Why a row was left out. Rows are counted as in a spreadsheet, where the first one holds the
names of the columns. -/
inductive Warning where
  | duplicateSpecification (row : Nat) (id : String)
  | unknownSpecification (sheet : String) (row : Nat) (id : String)
  | unknownFacet (row : Nat) (name : String)
  | unknownPropertySet (row : Nat) (name : String)
deriving DecidableEq, Repr

/-- The warning in words. -/
def Warning.message : Warning → String
  | duplicateSpecification row id =>
    "specifications row " ++ toString row ++ ": duplicate spec_id '" ++ id ++ "'"
  | unknownSpecification sheet row id =>
    sheet ++ " row " ++ toString row ++ ": unknown spec_id '" ++ id ++ "'"
  | unknownFacet row name =>
    "applicability row " ++ toString row ++ ": unknown facet '" ++ name ++ "'"
  | unknownPropertySet row name =>
    "element_psets row " ++ toString row ++ ": unknown property set '" ++ name ++ "'"

/-- The sheets that have to be there. -/
def requiredSheets : List String := ["info", "specifications"]

/-- The sheets that may be there. -/
def optionalSheets : List String := ["applicability", "psets_lookup", "element_psets"]

/-- The version of the schema when a row names none. -/
def defaultIfcVersion : String := "IFC4"

/-- The specifications found so far by their ids, and the warnings. -/
structure Draft where
  specifications : Dictionary Specification := ∅
  warnings : List Warning := []

namespace Draft

/-- Adds a warning. -/
def warn (d : Draft) (w : Warning) : Draft := { d with warnings := d.warnings ++ [w] }

/-- Changes the specification with an id, or warns that there is none. -/
def change (d : Draft) (sheet : String) (row : Nat) (id : String)
    (f : Specification → Specification ⊕ Warning) : Draft :=
  match d.specifications.find? id with
  | none => d.warn (.unknownSpecification sheet row id)
  | some s =>
    match f s with
    | .inl s => { d with specifications := d.specifications.insert id s }
    | .inr w => d.warn w

/-- Takes the numbered rows of a sheet one after the other. -/
def take (step : Draft → Nat → Row → Draft) (d : Draft) (rows : List Row) : Draft :=
  (rows.zipIdx 2).foldl (fun d r => step d r.2 r.1) d

end Draft

/-! ### The document itself -/

/-- What the document says about itself. -/
def infoOf (w : Workbook) : Ids.Info :=
  match (w.rows "info").head? with
  | none => {}
  | some r => Ids.Info.names.foldl (fun i n => match r.cell? n with
    | some value => i.set n value
    | none => i) {}

/-- The id of the specification in a row. A row without one is known by its place in the sheet. -/
def specificationId (row : Nat) (r : Row) : String := (r.cell? "spec_id").getD (toString (row - 1))

/-- The specification in a row. -/
def specificationOf (row : Nat) (r : Row) : Specification where
  name := (r.cell? "name").getD (specificationId row r)
  ifcVersion := (r.cell? "ifc_version").getD defaultIfcVersion
  identifier := r.cell? "identifier"
  description := r.cell? "description"
  instructions := r.cell? "instructions"

/-- Takes a row of `specifications`. -/
def takeSpecification (d : Draft) (row : Nat) (r : Row) : Draft :=
  let id := specificationId row r
  match d.specifications.find? id with
  | some _ => d.warn (.duplicateSpecification row id)
  | none => { d with specifications := d.specifications.insert id (specificationOf row r) }

/-! ### Applicability -/

/-- The restriction in a cell, where an empty cell stands for an empty literal. -/
def restrictionIn (r : Row) (column : String) : Ids.Value :=
  (restriction? (r.cell column)).getD (.simple "")

/-- A restriction, unless it names nothing. -/
def unlessEmpty (v : Ids.Value) : Option Ids.Value := if v.isEmpty then none else some v

/-- The condition in a row of `applicability`. -/
def conditionOf (kind : FacetKind) (r : Row) : Ids.Condition :=
  let name := restrictionIn r "name"
  let value := restriction? (r.cell "value")
  match kind with
  | .entity => .entity name none
  | .property => .property (restrictionIn r "property_set") name value none none
  | .attribute => .attribute name value
  | .classification => .classification (unlessEmpty name) value none
  | .material => .material (value.or (unlessEmpty name)) none
  | .partOf => .partOf name (Ids.Relation.ofText? (r.cell "value"))

/-- Takes a row of `applicability`. -/
def takeApplicability (d : Draft) (row : Nat) (r : Row) : Draft :=
  d.change "applicability" row (r.cell "spec_id") fun s =>
    match FacetKind.ofName? (r.cell "facet") with
    | none => .inr (.unknownFacet row (r.cell "facet"))
    | some kind =>
      .inl { s with applicability := s.applicability ++ [⟨conditionOf kind r, .required, none⟩] }

/-! ### Requirements -/

/-- A property of a property set. -/
structure Property where
  set : String
  name : String
  dataType : Option String
  value : Option Ids.Value

/-- The property in a row of `psets_lookup`, if both names are given. -/
def propertyOf? (r : Row) : Option Property := do
  return ⟨← r.cell? "pset_name", ← r.cell? "property_name", r.cell? "data_type",
    restriction? (r.cell "value")⟩

/-- All listed properties. -/
def properties (w : Workbook) : List Property := (w.rows "psets_lookup").filterMap propertyOf?

/-- The requirement of a property by a row of `element_psets`, whose own value comes first. -/
def requirementOf (r : Row) (p : Property) : Facet where
  condition := .property (.simple p.set) (.simple p.name)
    ((restriction? (r.cell "value")).or p.value) p.dataType none
  cardinality := .ofText (r.cell "cardinality")

/-- Takes a row of `element_psets`. -/
def takeRequirement (ps : List Property) (d : Draft) (row : Nat) (r : Row) : Draft :=
  d.change "element_psets" row (r.cell "spec_id") fun s =>
    match ps.filter (·.set = r.cell "pset_name") with
    | [] => .inr (.unknownPropertySet row (r.cell "pset_name"))
    | ps => .inl { s with requirements := s.requirements ++ ps.map (requirementOf r) }

/-! ### All sheets -/

/-- The specifications and warnings of a workbook. -/
def draft (w : Workbook) : Draft :=
  let d := Draft.take takeSpecification {} (w.rows "specifications")
  let d := d.take takeApplicability (w.rows "applicability")
  d.take (takeRequirement w.properties) (w.rows "element_psets")

/-- The document in a workbook with the warnings, or else the name of a sheet that is missing. -/
def document? (w : Workbook) : Except String (Ids.Document × List Warning) :=
  match requiredSheets.find? fun n => (w.sheet? n).isNone with
  | some sheet => .error sheet
  | none => .ok (⟨infoOf w, w.draft.specifications.entries.map (·.2)⟩, w.draft.warnings)

end BimAudit.Workbook
