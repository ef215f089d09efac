import BimAudit.Dictionary
import BimAudit.Total

/-!
# Entities

An entity is one object of a building model with everything that requirements can speak of: its
attributes, property sets, materials, classifications and the objects it is part of.
-/

namespace BimAudit.Ifc

/-- A classification that an entity carries. -/
structure Classification where
  /-- The name of the classification system, empty if it is unknown. -/
  system : String
  /-- The code within the system. -/
  identification : String
deriving DecidableEq, Repr

/-- An object that an entity is part of. -/
structure Parent where
  /-- The type of the relationship record. -/
  relation : String
  type : String
  guid : String
deriving DecidableEq, Repr

/-- One object of a building model. -/
structure Entity where
  /-- The id of its record. -/
  id : Nat
  guid : String
  type : String
  /-- The name to show, a dash if the model gives none. -/
  name : String := "-"
  attributes : Dictionary String := ∅
  /-- The values of properties, by property set and property name. -/
  propertySets : Dictionary (Dictionary String) := ∅
  materials : List String := []
  classifications : List Classification := []
  parents : List Parent := []
  /-- The file that the entity comes from. -/
  sourceFile : String

namespace Entity

/-- The value of a property. -/
def property? (e : Entity) (set name : String) : Option String :=
  (e.propertySets.find? set).bind (·.find? name)

/-- The number of properties in all property sets. -/
def propertyCount (e : Entity) : Nat :=
  total (fun s => s.2.size) e.propertySets.entries

end Entity

end BimAudit.Ifc
