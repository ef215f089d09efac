import BimAudit.Ifc.Entity
import BimAudit.Ifc.Scan

/-!
# Links between objects

The relationship records of a model, turned round: for each object its property sets, its type, its
materials, its classifications and its parents. A record is resolved by looking other records up in
the finished store, so it may refer forwards as well as backwards.
-/

namespace BimAudit.Ifc

open Step (Record Value)

/-- The longest chain of references followed to a material or a classification system. -/
def maxLinkDepth : Nat := 6

/-- A relationship that makes one object part of another: its type, and the positions of the parent
and of the children among its parameters. -/
structure ParentRelation where
  type : String
  parent : Nat
  children : Nat

/-- The relationships that give parents. -/
def parentRelations : List ParentRelation :=
  [⟨"IFCRELAGGREGATES", 4, 5⟩,
   ⟨"IFCRELNESTS", 4, 5⟩,
   ⟨"IFCRELCONTAINEDINSPATIALSTRUCTURE", 5, 4⟩,
   ⟨"IFCRELVOIDSELEMENT", 4, 5⟩,
   ⟨"IFCRELFILLSELEMENT", 4, 5⟩,
   ⟨"IFCRELASSIGNSTOGROUP", 6, 4⟩]

/-- A property set or quantity set with the values of its members. -/
structure PropertySet where
  name : String
  properties : Dictionary String

/-- What the relationship records say, by the id of the object they speak of. -/
structure Links where
  propertySets : Std.HashMap Nat PropertySet := ∅
  /-- The sets attached to an object, in order. -/
  definedBy : Std.HashMap Nat (List Nat) := ∅
  /-- The type last assigned to an object. -/
  typedBy : Std.HashMap Nat Nat := ∅
  materials : Std.HashMap Nat (List String) := ∅
  classifications : Std.HashMap Nat (List Classification) := ∅
  /-- The relationship and the parent's id, in order. -/
  parents : Std.HashMap Nat (List (String × Nat)) := ∅

/-! ### Parameters by position -/

/-- The id at a position, if a single reference stands there. -/
def referenceAt (vs : List Value) (i : Nat) : Option Nat := (vs[i]?).bind Value.reference?

/-- The ids at a position: a single reference or the members of a list. -/
def referencesAt (vs : List Value) (i : Nat) : List Nat := ((vs[i]?).map Value.references).getD []

/-- The text at a position. -/
def textAt (vs : List Value) (i : Nat) : Option String := (vs[i]?).bind Value.text?

/-! ### Resolving references -/

namespace Store

/-- Where the value of a property or quantity stands, by the type of its record. -/
def valuePosition? (type : String) : Option Nat :=
  if type = "IFCPROPERTYSINGLEVALUE" ∨ type = "IFCPROPERTYENUMERATEDVALUE" then some 2
  else if Text.startsWith "IFCQUANTITY" type then some 3
  else none

/-- The name and value of a member of a property set. A member without a name has neither. -/
def member? (st : Store) (id : Nat) : Option (String × String) := do
  let r ← st.find? id
  let vs := r.values
  let name ← textAt vs 0
  let i ← valuePosition? r.type
  if name = "" then none else some (name, ((vs[i]?).map Value.propertyText).getD "")

/-- The property set that a record defines. -/
def propertySet (st : Store) (r : Record) : PropertySet :=
  let vs := r.values
  let members := referencesAt vs (if r.type = "IFCELEMENTQUANTITY" then 5 else 4)
  ⟨(textAt vs 2).getD "", .ofList (members.filterMap st.member?)⟩

/-- The record bears the name of a material. -/
def namesMaterial (type : String) : Bool :=
  type = "IFCMATERIAL" || (Text.startsWith "IFCMATERIAL" type && Text.endsWith "SET" type)

/-- The records met on a walk, and the material names found, each once and in order. -/
structure Walk where
  seen : List Nat := []
  names : List String := []

/-- Notes the material name of a record, if it bears a new one. -/
def Walk.note (w : Walk) (r : Record) : Walk :=
  if namesMaterial r.type then
    match r.strings.head? with
    | some name =>
      if name ≠ "" ∧ name ∉ w.names then { w with names := w.names ++ [name] } else w
    | none => w
  else w

/-- Walks from a record along its references, at most `depth` records deep, into no record twice and
not beyond a material. -/
def walk (st : Store) : Nat → Nat → Walk → Walk
  | 0, _, w => w
  | depth + 1, id, w =>
    if id ∈ w.seen then w
    else
      let w := { w with seen := id :: w.seen }
      match st.find? id with
      | none => w
      | some r =>
        -- a material ends the walk
        if r.type = "IFCMATERIAL" then w.note r
        else r.links.foldl (fun w child => walk st depth child w) (w.note r)

/-- The names of the materials that a record leads to. -/
def materialNames (st : Store) (id : Nat) : List String := (st.walk (maxLinkDepth + 1) id {}).names

/-- The name of the classification system that a source leads to, within `depth` records. -/
def classificationSystem? (st : Store) : Nat → Nat → Option String
  | 0, _ => none
  | depth + 1, id => do
    let r ← st.find? id
    if r.type = "IFCCLASSIFICATION" then textAt r.values 3
    else if r.type = "IFCCLASSIFICATIONREFERENCE" then
      classificationSystem? st depth (← referenceAt r.values 3)
    else none

/-- The classification that a record stands for. Its code is the identification if there is one, and
the name otherwise. -/
def classification? (st : Store) (id : Nat) : Option Classification := do
  let r ← st.find? id
  let vs := r.values
  if r.type = "IFCCLASSIFICATIONREFERENCE" then
    -- an empty identification counts as none
    let code := ((textAt vs 1).filter (· ≠ "")).or (textAt vs 2)
    let system := (referenceAt vs 3).bind (st.classificationSystem? (maxLinkDepth + 1))
    some ⟨system.getD "", code.getD ""⟩
  else if r.type = "IFCCLASSIFICATION" then some ⟨(textAt vs 3).getD "", ""⟩
  else none

end Store

/-! ### Collecting links -/

namespace Links

/-- Adds a value at the end of what an object has. -/
def append {α : Type} (m : Std.HashMap Nat (List α)) (id : Nat) (a : α) :
    Std.HashMap Nat (List α) :=
  m.insert id (m.getD id [] ++ [a])

/-- Adds the names that are not there yet, in order. -/
def addNames (old new : List String) : List String :=
  new.foldl (fun ns n => if n ∈ ns then ns else ns ++ [n]) old

/-- Takes in one record. -/
def resolve (st : Store) (l : Links) (r : Record) : Links :=
  if r.type = "IFCPROPERTYSET" ∨ r.type = "IFCELEMENTQUANTITY" then
    { l with propertySets := l.propertySets.insert r.id (st.propertySet r) }
  else if r.type = "IFCRELDEFINESBYPROPERTIES" then
    match referenceAt r.values 5 with
    | none => l
    | some set =>
      { l with definedBy := (referencesAt r.values 4).foldl (append · · set) l.definedBy }
  else if r.type = "IFCRELDEFINESBYTYPE" then
    match referenceAt r.values 5 with
    | none => l
    | some type =>
      { l with typedBy := (referencesAt r.values 4).foldl (·.insert · type) l.typedBy }
  else if r.type = "IFCRELASSOCIATESMATERIAL" then
    match referenceAt r.values 5 with
    | none => l
    | some material =>
      -- one walk serves all objects of the relation
      let names := st.materialNames material
      { l with
        materials := (referencesAt r.values 4).foldl
          (fun m id => m.insert id (addNames (m.getD id []) names)) l.materials }
  else if r.type = "IFCRELASSOCIATESCLASSIFICATION" then
    match (referenceAt r.values 5).bind st.classification? with
    | none => l
    | some c =>
      { l with classifications := (referencesAt r.values 4).foldl (append · · c) l.classifications }
  else
    match parentRelations.find? (·.type = r.type) with
    | none => l
    | some relation =>
      match referenceAt r.values relation.parent with
      | none => l
      | some parent =>
        { l with
          parents := (referencesAt r.values relation.children).foldl
            (append · · (relation.type, parent)) l.parents }

end Links

end BimAudit.Ifc
