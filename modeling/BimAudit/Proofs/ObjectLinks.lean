import BimAudit.Proofs.ClassificationSystems
import BimAudit.Proofs.RelatedObjects

/-!
# Parents and classifications

An entity has a parent for each time that a relationship names it as a child, and a classification
for each time that it is classified, in the order of the relationships.

* `namedParents`, `namedClassifications`: what the relationships name for an object.
* `links_of_read`: **the parents and classifications of an entity are those that the relationships
  name**, no more and no less.
-/

namespace BimAudit.Ifc

open Step (Record)

/-- The parents that relationships name for an object: for each relationship in order, and for each
time that the object is among the children, the record that it names as parent, if there is one. -/
def namedParents (rs : List Record) (id : Nat) : List Parent :=
  given statedChildren (fun r => (statedParent r).bind fun link =>
    (lastWith rs link.2).map fun p => ⟨link.1, p.type, p.strings.head?.getD ""⟩) rs id

/-- The classifications and references that relationships name for an object. -/
def namedClassifications (rs : List Record) (id : Nat) : List Record :=
  given related (fun r => (relating "IFCRELASSOCIATESCLASSIFICATION" r).bind fun c =>
    (lastWith rs c).filter isClassification) rs id

/-- **The parents and classifications of an entity.** Its parents are those that the relationships
name, in their order, once for each time that they name the entity as a child. Its classifications
are the classifications and references that it is associated with, likewise. The system of a
reference is the one to which so many sources at most lead as the limit allows, and there is none
exactly if the chain of sources is cyclic, longer or broken. -/
theorem links_of_read {n : Nat} {file : String} {text : List Char} {e : Entity}
    (h : e ∈ (read n file text).entities) :
    e.parents = namedParents (recordsIn text) e.id ∧
      e.classifications = (namedClassifications (recordsIn text) e.id).map
        (classificationOf (recordsIn text)) ∧
      ∀ r, (∀ c, systemOf? (recordsIn text) r = some c ↔
          ∃ n ≤ maxLinkDepth + 1, Sources (recordsIn text) n r c ∧ isSystem c = true) ∧
        (systemOf? (recordsIn text) r = none ↔ NoSystem (recordsIn text) r) := by
  obtain ⟨r, -, he⟩ := mem_entities_read.1 h
  obtain ⟨-, -, hclassifications, hparents⟩ := links_of_entity? he
  refine ⟨?_, ?_, fun r => ⟨fun c => systemOf?_eq_some_iff, systemOf?_eq_none_iff⟩⟩
  · rw [hparents, id_of_entity? he, Links.parents_ofRecords, filterMap_given]
    unfold parent? namedParents
    simp only [Store.find?_ofRecords]
  · rw [hclassifications, id_of_entity? he, Links.classifications_ofRecords,
      funext (classification?_ofRecords _)]
    unfold namedClassifications
    rw [map_given]
    simp only [Option.map_bind, Function.comp_def]

/-- A wall that a storey names twice, with a classification and a reference to itself. -/
def classifiedWallText : List Char :=
  ["#1=IFCWALL('W1');", "#2=IFCBUILDINGSTOREY('S1');",
    "#3=IFCRELCONTAINEDINSPATIALSTRUCTURE($,$,$,$,(#1,#4,#1),#2);",
    "#4=IFCCLASSIFICATIONREFERENCE($,'A',$,#5);", "#5=IFCCLASSIFICATION($,$,$,'System');",
    "#6=IFCCLASSIFICATIONREFERENCE($,$,'B',#6);",
    "#7=IFCRELASSOCIATESCLASSIFICATION($,$,$,$,#1,#6);",
    "#8=IFCRELASSOCIATESCLASSIFICATION($,$,$,$,(#1),#4);"].flatMap (·.toList ++ ['\n'])

/-- The records of the text. -/
def classifiedWallRecords : List Record :=
  [⟨1, "IFCWALL", "'W1'".toList⟩, ⟨2, "IFCBUILDINGSTOREY", "'S1'".toList⟩,
    ⟨3, "IFCRELCONTAINEDINSPATIALSTRUCTURE", "$,$,$,$,(#1,#4,#1),#2".toList⟩,
    ⟨4, "IFCCLASSIFICATIONREFERENCE", "$,'A',$,#5".toList⟩,
    ⟨5, "IFCCLASSIFICATION", "$,$,$,'System'".toList⟩,
    ⟨6, "IFCCLASSIFICATIONREFERENCE", "$,$,'B',#6".toList⟩,
    ⟨7, "IFCRELASSOCIATESCLASSIFICATION", "$,$,$,$,#1,#6".toList⟩,
    ⟨8, "IFCRELASSOCIATESCLASSIFICATION", "$,$,$,$,(#1),#4".toList⟩]

theorem recordsIn_classifiedWall : recordsIn classifiedWallText = classifiedWallRecords := by
  decide +kernel

/-- The wall has the storey as parent twice, and the classification without a system first. -/
theorem links_of_read_classifiedWall :
    ∃ e ∈ (read 1 "a.ifc" classifiedWallText).entities, e.id = 1 ∧
      e.parents = [⟨"IFCRELCONTAINEDINSPATIALSTRUCTURE", "IFCBUILDINGSTOREY", "S1"⟩,
        ⟨"IFCRELCONTAINEDINSPATIALSTRUCTURE", "IFCBUILDINGSTOREY", "S1"⟩] ∧
      e.classifications = [⟨"", "B"⟩, ⟨"System", "A"⟩] := by
  have hwall : ⟨1, "IFCWALL", "'W1'".toList⟩ ∈ recordsIn classifiedWallText := by
    rw [recordsIn_classifiedWall]
    exact List.mem_cons_self
  have hguid : (⟨1, "IFCWALL", "'W1'".toList⟩ : Record).strings.head? = some "W1" := by
    decide +kernel
  obtain ⟨e, hmem, heid⟩ :=
    exists_mem_entities_read hwall (by decide +kernel) hguid (by decide) 1 "a.ifc"
  obtain ⟨hparents, hclassifications, -⟩ := links_of_read hmem
  rw [recordsIn_classifiedWall, heid] at hparents hclassifications
  refine ⟨e, hmem, heid, ?_, ?_⟩
  · rw [hparents]
    decide +kernel
  · rw [hclassifications]
    decide +kernel

end BimAudit.Ifc
