import Mathlib.Data.List.Induction
import BimAudit.Proofs.ReadRecords

/-!
# What relationships give to an object

Relationships name the objects they speak of; links turn this round and list for each object what it
is given. One record changes each table of the links in a way of its own, and for all records
together each table can be read off the list of records.

* `Links.resolve_eq`: what one record does to each table.
* `given`: what some records give to an object, in order, and once for each time they name it.
* `Links.definedBy_ofRecords`, `Links.typedBy_ofRecords`, `Links.classifications_ofRecords`,
  `Links.parents_ofRecords`, `Links.propertySets_ofRecords`: **the tables of the links between some
  records.**
-/

namespace BimAudit.Ifc

open Step (Record)

/-! ### Relationships -/

/-- What a relationship of the given type relates its objects to. -/
def relating (type : String) (r : Record) : Option Nat :=
  if r.type = type then referenceAt r.values 5 else none

/-- The objects that a relationship speaks of, if it is not one that gives parents. -/
def related (r : Record) : List Nat := referencesAt r.values 4

/-- The relationship that gives parents, if a record is one. -/
def parentRelation? (r : Record) : Option ParentRelation := parentRelations.find? (·.type = r.type)

/-- The relationship and the parent that a record states. -/
def statedParent (r : Record) : Option (String × Nat) :=
  (parentRelation? r).bind fun p => (referenceAt r.values p.parent).map (p.type, ·)

/-- The objects that a record states a parent of. -/
def statedChildren (r : Record) : List Nat :=
  ((parentRelation? r).map fun p => referencesAt r.values p.children).getD []

/-- What some records give to an object: for each of them in order what it gives, once for each time
that it names the object. -/
def given {α : Type} (names : Record → List Nat) (gives : Record → Option α) (rs : List Record)
    (id : Nat) : List α :=
  rs.flatMap fun r => ((names r).filter (· = id)).filterMap fun _ => gives r

section Given

variable {α β : Type} (names : Record → List Nat) (gives : Record → Option α) (rs : List Record)
  (id : Nat)

/-- The record at the end gives what it gives behind all others. -/
theorem given_concat (r : Record) : given names gives (rs ++ [r]) id
    = given names gives rs id ++ ((names r).filter (· = id)).filterMap fun _ => gives r := by
  unfold given
  rw [List.flatMap_append, List.flatMap_singleton]

theorem filterMap_given (f : α → Option β) :
    (given names gives rs id).filterMap f = given names (fun r => (gives r).bind f) rs id := by
  unfold given
  rw [List.filterMap_flatMap]
  simp only [List.filterMap_filterMap]

theorem map_given (f : α → β) :
    (given names gives rs id).map f = given names (fun r => (gives r).map f) rs id := by
  rw [← List.filterMap_eq_map, filterMap_given]
  simp only [Option.map_eq_bind]

end Given

namespace Links

variable {α : Type} {st : Store} {l : Links} {r : Record}

/-! ### Tables -/

/-- An entry that is appended comes behind those of its key. -/
theorem getD_append (m : Std.HashMap Nat (List α)) (i id : Nat) (a : α) :
    (append m i a).getD id [] = m.getD id [] ++ if i = id then [a] else [] := by
  unfold append
  rw [Std.HashMap.getD_insert]
  by_cases h : i = id <;> simp [h]

/-- A value is added once for each time that the object is named. -/
theorem getD_foldl_append (ids : List Nat) (m : Std.HashMap Nat (List α)) (id : Nat) (a : α) :
    (ids.foldl (append · · a) m).getD id []
      = m.getD id [] ++ (ids.filter (· = id)).map fun _ => a := by
  induction ids generalizing m with
  | nil => simp
  | cons i ids ih =>
    rw [List.foldl_cons, ih, getD_append, List.append_assoc, List.filter_cons]
    by_cases h : i = id <;> simp [h]

/-- A value is set if the object is named. -/
theorem getElem?_foldl_insert (ids : List Nat) (m : Std.HashMap Nat α) (id : Nat) (a : α) :
    (ids.foldl (·.insert · a) m)[id]?
      = (((ids.filter (· = id)).map fun _ => a).getLast?).or m[id]? := by
  induction ids generalizing m with
  | nil => simp
  | cons i ids ih =>
    rw [List.foldl_cons, ih, Std.HashMap.getElem?_insert, List.filter_cons]
    by_cases h : i = id
    · by_cases hlen : (ids.filter (· = id)).length = 0 <;>
        simp [h, List.getLast?_cons, List.getLast?_replicate, hlen]
    · simp [h]

/-! ### One record -/

/-- Adds a value to what each of some objects has, if there is one. -/
def appendAll (m : Std.HashMap Nat (List α)) (ids : List Nat) (a : Option α) :
    Std.HashMap Nat (List α) :=
  a.elim m fun a => ids.foldl (append · · a) m

/-- An object that is named more than once gets the entry each time. -/
theorem getD_appendAll (m : Std.HashMap Nat (List α)) (ids : List Nat) (a : Option α) (id : Nat) :
    (appendAll m ids a).getD id []
      = m.getD id [] ++ (ids.filter (· = id)).filterMap fun _ => a := by
  cases a with
  | none => simp [appendAll]
  | some a => simp [appendAll, getD_foldl_append]

/-- **What one record does to each table.** -/
theorem resolve_eq (st : Store) (l : Links) (r : Record) : resolve st l r = {
    propertySets :=
      if isPropertySet r then l.propertySets.insert r.id (st.propertySet r) else l.propertySets
    definedBy := appendAll l.definedBy (related r) (relating "IFCRELDEFINESBYPROPERTIES" r)
    typedBy := (relating "IFCRELDEFINESBYTYPE" r).elim l.typedBy fun type =>
      (related r).foldl (·.insert · type) l.typedBy
    materials := (relating "IFCRELASSOCIATESMATERIAL" r).elim l.materials fun material =>
      let names := st.materialNames material
      (related r).foldl (fun m id => m.insert id (addNames (m.getD id []) names)) l.materials
    classifications := appendAll l.classifications (related r)
      ((relating "IFCRELASSOCIATESCLASSIFICATION" r).bind st.classification?)
    parents := appendAll l.parents (statedChildren r) (statedParent r) } := by
  unfold resolve isPropertySet relating statedParent statedChildren parentRelation? appendAll
  split
  · next h => rcases h with h | h <;> simp [h, parentRelations]
  split
  · next h => cases referenceAt r.values 5 <;> simp [h, related, parentRelations]
  split
  · next h => cases referenceAt r.values 5 <;> simp [h, related, parentRelations]
  split
  · next h => cases referenceAt r.values 5 <;> simp [h, related, parentRelations]
  split
  · next h =>
    cases (referenceAt r.values 5).bind st.classification? <;> simp [h, related, parentRelations]
  · -- what is left is a relationship that gives parents, or none at all
    next hset _ _ _ _ =>
    cases parentRelations.find? (·.type = r.type) with
    | none => simp [hset]
    | some p => cases hparent : referenceAt r.values p.parent <;> simp [hset, hparent]

/-! ### All records -/

/-- A table to which each record appends what it gives holds all that the records give. -/
theorem getD_foldl_resolve (st : Store) (table : Links → Std.HashMap Nat (List α))
    (names : Record → List Nat) (gives : Record → Option α)
    (hstep : ∀ l r, table (resolve st l r) = appendAll (table l) (names r) (gives r))
    (rs : List Record) (l : Links) (id : Nat) :
    (table (rs.foldl (resolve st) l)).getD id []
      = (table l).getD id [] ++ given names gives rs id := by
  induction rs using List.reverseRecOn with
  | nil => simp [given]
  | append_singleton rs r ih =>
    rw [List.foldl_concat, hstep, getD_appendAll, ih, given_concat, List.append_assoc]

/-- **A table holds what the records give**, in their order. The induction is on the records from
the last one. -/
theorem getD_ofRecords (rs : List Record) (table : Links → Std.HashMap Nat (List α))
    (names : Record → List Nat) (gives : Record → Option α) (hempty : table {} = ∅)
    (hstep : ∀ l r, table (resolve (.ofRecords rs) l r) = appendAll (table l) (names r) (gives r))
    (id : Nat) : (table (ofRecords rs)).getD id [] = given names gives rs id := by
  have htable := getD_foldl_resolve (.ofRecords rs) table names gives hstep rs {} id
  rwa [hempty, Std.HashMap.getD_empty, List.nil_append] at htable

/-- The property sets of an object are those that relate to it. -/
theorem definedBy_ofRecords (rs : List Record) (id : Nat) :
    (ofRecords rs).definedBy.getD id []
      = given related (relating "IFCRELDEFINESBYPROPERTIES") rs id :=
  getD_ofRecords rs definedBy related _ rfl (fun l r => by rw [resolve_eq]) id

/-- The classifications of an object are those that can be read. -/
theorem classifications_ofRecords (rs : List Record) (id : Nat) :
    (ofRecords rs).classifications.getD id []
      = given related (fun r => (relating "IFCRELASSOCIATESCLASSIFICATION" r).bind
          (Store.ofRecords rs).classification?) rs id :=
  getD_ofRecords rs classifications related _ rfl (fun l r => by rw [resolve_eq]) id

/-- The parents of an object are those that state it as a child. -/
theorem parents_ofRecords (rs : List Record) (id : Nat) :
    (ofRecords rs).parents.getD id [] = given statedChildren statedParent rs id :=
  getD_ofRecords rs parents statedChildren statedParent rfl (fun l r => by rw [resolve_eq]) id

/-- **The type of an object is the one that it was last given.** -/
theorem typedBy_ofRecords (rs : List Record) (id : Nat) :
    (ofRecords rs).typedBy[id]?
      = (given related (relating "IFCRELDEFINESBYTYPE") rs id).getLast? := by
  have hrun : ∀ (st : Store) (rs : List Record), (rs.foldl (resolve st) {}).typedBy[id]?
      = (given related (relating "IFCRELDEFINESBYTYPE") rs id).getLast? := by
    intro st rs
    induction rs using List.reverseRecOn with
    | nil => simp [given]
    | append_singleton rs r ih =>
      rw [List.foldl_concat, resolve_eq, given_concat, List.getLast?_append]
      cases relating "IFCRELDEFINESBYTYPE" r with
      | none => simp [ih]
      | some type =>
        simp only [Option.elim_some, getElem?_foldl_insert, ih, List.filterMap_eq_map']
  exact hrun _ rs

/-- The property set with an id is that of the last such record. -/
theorem propertySets_ofRecords (rs : List Record) (id : Nat) :
    (ofRecords rs).propertySets[id]?
      = (lastWith (rs.filter isPropertySet) id).map (Store.ofRecords rs).propertySet :=
  getElem?_propertySets_foldl _ rs id

end Links

end BimAudit.Ifc
