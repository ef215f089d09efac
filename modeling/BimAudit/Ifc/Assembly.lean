import BimAudit.Ifc.Links

/-!
# Assembling entities

Records of object types become entities. The first string literal of a record is its GUID and the
second its name; the description and the predefined type are parameters by position. Property sets
of the type come first and those of the object itself override them, property by property.
-/

namespace BimAudit.Ifc

open Step (Record Value)

/-- The type is that of an object: no relationship, property definition or quantity. -/
def isObjectType (type : String) : Bool :=
  Text.startsWith "IFC" type && !Text.contains "REL" type && !Text.contains "PROPERTY" type
    && !Text.contains "QUANTITY" type

/-- The type is that of a type object. -/
def isTypeObject (type : String) : Bool := Text.endsWith "TYPE" type || Text.endsWith "STYLE" type

/-- The property sets that a type object brings with it. -/
def ownPropertySets (r : Record) : List Nat := referencesAt r.values 5

/-- The last parameter, if it is a name and no truth value. -/
def predefinedType? (vs : List Value) : Option String :=
  match vs.getLast? with
  | some (.enum name) => if name = "T" ∨ name = "F" ∨ name = "U" then none else some name
  | _ => none

/-- The description: the fourth parameter, if it is a plain string. -/
def description? (vs : List Value) : Option String :=
  match vs[3]? with
  | some (Value.string s) => some s
  | _ => none

/-- Gives an attribute its value, if there is one. -/
def withAttribute (name : String) (value : Option String) (d : Dictionary String) :
    Dictionary String :=
  match value with
  | some v => d.insert name v
  | none => d

/-- The property sets of an object, by id, in the order in which they override each other. -/
def propertySetIds (st : Store) (l : Links) (r : Record) : List Nat :=
  ((((l.typedBy[r.id]?).bind st.find?).map ownPropertySets).getD [])
    ++ (if isTypeObject r.type then ownPropertySets r else [])
    ++ l.definedBy.getD r.id []

/-- Adds the properties of a set to the set of the same name. -/
def attach (d : Dictionary (Dictionary String)) (set : PropertySet) :
    Dictionary (Dictionary String) :=
  d.insert set.name (((d.find? set.name).getD ∅).merge set.properties)

/-- The property sets of an object with their values. -/
def propertySets (st : Store) (l : Links) (r : Record) : Dictionary (Dictionary String) :=
  ((propertySetIds st l r).filterMap (l.propertySets[·]?)).foldl attach ∅

/-- The object that a relationship names as parent, if its record exists. -/
def parent? (st : Store) (link : String × Nat) : Option Parent :=
  (st.find? link.2).map fun r => ⟨link.1, r.type, r.strings.head?.getD ""⟩

/-- The entity of a record: none if the record is no object or has no GUID. -/
def entity? (file : String) (st : Store) (l : Links) (r : Record) : Option Entity :=
  if isObjectType r.type then
    match r.strings with
    | [] => none
    | guid :: rest =>
      if guid = "" then none
      else
        let vs := r.values
        some {
          id := r.id
          guid
          type := r.type
          name := rest.head?.getD "-"
          attributes :=
            withAttribute "PredefinedType" (predefinedType? vs)
              (withAttribute "Description" (description? vs)
                (withAttribute "Name" rest.head?
                  (withAttribute "GlobalId" (some guid) ∅)))
          propertySets := propertySets st l r
          materials := l.materials.getD r.id []
          classifications := l.classifications.getD r.id []
          parents := (l.parents.getD r.id []).filterMap (parent? st)
          sourceFile := file }
  else none

end BimAudit.Ifc
