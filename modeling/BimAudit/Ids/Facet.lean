import BimAudit.Ids.Value
import BimAudit.Text.Words

/-!
# Facets

A facet is a condition on an entity of a building model: its type, a property, an attribute, a
classification, a material or the whole that it is part of. The cardinality of a facet says whether
the condition has to hold, may be left open, or must not hold.
-/

namespace BimAudit.Ids

/-- Whether a condition has to hold. -/
inductive Cardinality where
  | required
  | optional
  | prohibited
deriving DecidableEq, Repr

namespace Cardinality

/-- The word for the cardinality. -/
def name : Cardinality → String
  | required => "required"
  | optional => "optional"
  | prohibited => "prohibited"

/-- The cardinality that a text names, in any case and with blanks around it. Every other text means
that the condition has to hold. -/
def ofText (s : String) : Cardinality :=
  match Text.lower (Text.strip s) with
  | "optional" => optional
  | "prohibited" => prohibited
  | _ => required

end Cardinality

/-- The kinds of facets. -/
inductive FacetKind where
  | entity
  | property
  | attribute
  | classification
  | material
  | partOf
deriving DecidableEq, Repr

namespace FacetKind

/-- The name of the facet's element. -/
def name : FacetKind → String
  | entity => "entity"
  | property => "property"
  | .attribute => "attribute"
  | classification => "classification"
  | material => "material"
  | partOf => "partOf"

/-- All kinds, in the order of the schema. -/
def all : List FacetKind := [entity, partOf, classification, .attribute, property, material]

/-- The kind with a name, in any case. -/
def ofName? (s : String) : Option FacetKind := all.find? fun k => Text.equalIgnoringCase k.name s

end FacetKind

/-- The relationships that join a part to its whole. -/
inductive Relation where
  | aggregates
  | assignsToGroup
  | containedInSpatialStructure
  | nests
  | voidsElement
  | fillsElement
  /-- Either of the two before. -/
  | voidsOrFills
deriving DecidableEq, Repr

namespace Relation

/-- The name of the relationship. -/
def name : Relation → String
  | aggregates => "IFCRELAGGREGATES"
  | assignsToGroup => "IFCRELASSIGNSTOGROUP"
  | containedInSpatialStructure => "IFCRELCONTAINEDINSPATIALSTRUCTURE"
  | nests => "IFCRELNESTS"
  | voidsElement => "IFCRELVOIDSELEMENT"
  | fillsElement => "IFCRELFILLSELEMENT"
  | voidsOrFills => "IFCRELVOIDSELEMENT IFCRELFILLSELEMENT"

/-- All relationships. -/
def all : List Relation :=
  [aggregates, assignsToGroup, containedInSpatialStructure, nests, voidsElement, fillsElement,
    voidsOrFills]

/-- The relationship with exactly this name. -/
def ofName? (s : String) : Option Relation := all.find? (·.name = s)

/-- The relationship that a text names, in any case and with any blanks between words. -/
def ofText? (s : String) : Option Relation := ofName? (Text.upper (Text.joinWords s))

/-- Says that a text names no relationship. -/
def unknownMessage (s : String) : String := "unknown partOf relation '" ++ s ++ "'"

/-- A relationship record of the given type is one of this relationship. -/
def accepts (r : Relation) (type : String) : Bool :=
  match r with
  | voidsOrFills =>
    Text.equalIgnoringCase voidsElement.name type || Text.equalIgnoringCase fillsElement.name type
  | r => Text.equalIgnoringCase r.name type

end Relation

/-- What a facet asks of an entity. -/
inductive Condition where
  /-- The entity has a type, and a predefined type if one is asked for. -/
  | entity (name : Value) (predefinedType : Option Value)
  /-- A property set has a property with a value. -/
  | property (set name : Value) (value : Option Value) (dataType uri : Option String)
  /-- An attribute has a value. -/
  | attribute (name : Value) (value : Option Value)
  /-- The entity is classified. -/
  | classification (system value : Option Value) (uri : Option String)
  /-- The entity has a material. -/
  | material (value : Option Value) (uri : Option String)
  /-- The entity is part of an entity with a type. -/
  | partOf (whole : Value) (relation : Option Relation)
deriving DecidableEq, Repr

/-- A condition with its cardinality. -/
structure Facet where
  condition : Condition
  cardinality : Cardinality := .required
  /-- What the author of the model should do. -/
  instructions : Option String := none
deriving DecidableEq, Repr

/-- The kind of a condition. -/
def Condition.kind : Condition → FacetKind
  | entity .. => .entity
  | property .. => .property
  | .attribute .. => .attribute
  | classification .. => .classification
  | material .. => .material
  | partOf .. => .partOf

/-- The restrictions of a condition, in the order in which they are declared. -/
def Condition.values : Condition → List Value
  | entity name predefinedType => name :: predefinedType.toList
  | property set name value _ _ => set :: name :: value.toList
  | .attribute name value => name :: value.toList
  | classification system value _ => system.toList ++ value.toList
  | material value _ => value.toList
  | partOf whole _ => [whole]

namespace Facet

/-- The kind of a facet. -/
def kind (f : Facet) : FacetKind := f.condition.kind

/-- The restrictions of a facet. -/
def values (f : Facet) : List Value := f.condition.values

/-- The facet with another cardinality. -/
def withCardinality (f : Facet) (c : Cardinality) : Facet := { f with cardinality := c }

end Facet

end BimAudit.Ids
