import BimAudit.Ids.Facet
import BimAudit.Ifc.Entity

/-!
# Looking up properties and attributes

Restrictions may select several properties or attributes of an entity. They are looked at in the
order of their names, so what is found does not depend on the order in which the entity keeps them:
the first one with an acceptable value is found, and if there is none the first one is at fault.
Patterns may mean anything here.

* `lookup`: the outcome for a list of values.
* `propertyCandidates`, `attributeCandidates`: the values that are looked at.
-/

namespace BimAudit.Audit

open Ids (Value Patterns)

variable [Patterns]

/-- The outcome of looking something up. -/
inductive Lookup where
  /-- Nothing with the name is there. -/
  | absent (details : String)
  /-- It is there with a value that is not acceptable. -/
  | mismatch (details : String)
  /-- It is there with an acceptable value. -/
  | found (details : String)
deriving DecidableEq, Repr

/-- The restriction as it stands in messages: a literal without quotes. -/
def label (v : Value) : String := v.literal?.getD v.describe

/-- Says why a text is not accepted; `none` if it is. -/
def rejection? (expected : Value) (actual : String) : Option String :=
  let rejected := "Expected " ++ expected.describe ++ ", got " ++ Value.quoted actual
  match expected with
  | .pattern r =>
    if !Ids.isPattern r then some ("invalid pattern /" ++ r ++ "/")
    else if expected.accepts actual then none
    else some rejected
  | _ => if expected.accepts actual then none else some rejected

/-- Says why a text is not accepted; without a restriction every text is. -/
def rejectionBy? (expected : Option Value) (actual : String) : Option String :=
  expected.bind (rejection? · actual)

/-- Looks at the values in turn. The text says that there is none. -/
def lookup (expected : Option Value) (nothing : String) (values : List String) : Lookup :=
  match values.find? fun actual => (rejectionBy? expected actual).isNone with
  | some actual => .found ("Value: " ++ Value.quoted actual)
  | none =>
    match values with
    | [] => .absent nothing
    | actual :: _ => .mismatch ((rejectionBy? expected actual).getD "")

/-- The entries whose names satisfy a condition, in the order of their names. -/
def selected {α : Type} (entries : List (String × α)) (ok : String → Bool) : List (String × α) :=
  (entries.filter (ok ·.1)).mergeSort fun a b => a.1 ≤ b.1

/-- The property sets of an entity that a restriction selects. -/
def selectedSets (e : Ifc.Entity) (set : Value) : List (String × Dictionary String) :=
  selected e.propertySets.entries set.accepts

/-- The properties of an entity that two restrictions select, by the names of set and property. -/
def propertyCandidates (e : Ifc.Entity) (set name : Value) : List ((String × String) × String) :=
  (selectedSets e set).flatMap fun s =>
    (selected s.2.entries name.accepts).map fun p => ((s.1, p.1), p.2)

/-- The attributes of an entity that a restriction selects; empty ones do not count. -/
def attributeCandidates (e : Ifc.Entity) (name : Value) : List (String × String) :=
  selected (e.attributes.entries.filter (!·.2.isEmpty)) name.accepts

/-- Looks up a property. -/
def lookupProperty (e : Ifc.Entity) (set name : Value) (value : Option Value) : Lookup :=
  if (selectedSets e set).isEmpty then
    .absent ("Property set " ++ Value.quoted (label set) ++ " not found")
  else
    lookup value
      ("Property " ++ Value.quoted (label name) ++ " not found in " ++ Value.quoted (label set))
      ((propertyCandidates e set name).map (·.2))

/-- Looks up an attribute. -/
def lookupAttribute (e : Ifc.Entity) (name : Value) (value : Option Value) : Lookup :=
  lookup value ("Attribute " ++ Value.quoted (label name) ++ " not found")
    ((attributeCandidates e name).map (·.2))

end BimAudit.Audit
