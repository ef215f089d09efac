import BimAudit.Proofs.Correspondences
import BimAudit.Proofs.Lookups

/-!
# The order of entries does not matter

An entity keeps its attributes, its property sets and the properties of each set in some order,
which means nothing. Values that compete are put into the order of their names before they are
looked at. So whichever order the entries are kept in, also where restrictions select several sets,
properties or attributes with different outcomes, the answers are the same, word for word.

* `Dictionary.Reordered`, `Dictionary.ReorderedInside`: the same entries in another order, and sets
  of such entries.
* `Reordered`: entities that differ in nothing but the order of their entries.
* `eq_of_mem_iff`: a list in the order of distinct names is given by its members.
* `Reordered.propertyCandidates_eq`, `Reordered.attributeCandidates_eq`: the same values compete,
  and they are looked at in the same order.
* `check_of_reordered`: **neither what holds of an entity nor what is found depends on the order of
  its entries.**
-/

namespace BimAudit

/-! ### Dictionaries -/

namespace Dictionary

variable {α : Type}

/-- The same entries, in whatever order they are kept. -/
def Reordered (d d' : Dictionary α) : Prop := d.entries.Perm d'.entries

/-- The same names, in whatever order, and for each name the same entries, in whatever order. -/
def ReorderedInside (d d' : Dictionary (Dictionary α)) : Prop :=
  ∃ sets, d.entries.Perm sets ∧
    List.Forall₂ (fun s s' => s.1 = s'.1 ∧ s.2.Reordered s'.2) sets d'.entries

instance [DecidableEq α] (d d' : Dictionary α) : Decidable (d.Reordered d') :=
  inferInstanceAs (Decidable (List.Perm _ _))

/-- What is found under a name does not depend on the order. -/
theorem Reordered.find?_eq {d d' : Dictionary α} (h : d.Reordered d') (k : String) :
    d.find? k = d'.find? k := by
  apply Option.ext
  intro v
  rw [← mem_entries_iff, ← mem_entries_iff]
  exact h.mem_iff

variable {d d' : Dictionary (Dictionary α)}

/-- What is found in one of the dictionaries is found in the other, in another order. -/
theorem ReorderedInside.find?_some (h : d.ReorderedInside d') {k : String} {s : Dictionary α}
    (hs : d.find? k = some s) : ∃ s', d'.find? k = some s' ∧ s.Reordered s' := by
  obtain ⟨sets, hperm, hsets⟩ := h
  have hmem : (k, s) ∈ sets := hperm.mem_iff.1 (mem_entries_iff.2 hs)
  obtain ⟨⟨k', s'⟩, hmem', hk, hreordered⟩ := exists_of_forall₂_left hsets hmem
  cases hk
  exact ⟨s', mem_entries_iff.1 hmem', hreordered⟩

/-- What is missing in one of the dictionaries is missing in the other. -/
theorem ReorderedInside.find?_none (h : d.ReorderedInside d') {k : String}
    (hs : d.find? k = none) : d'.find? k = none := by
  obtain ⟨sets, hperm, hsets⟩ := h
  cases hs' : d'.find? k with
  | none => rfl
  | some s' =>
    obtain ⟨⟨k', s⟩, hmem, hk, -⟩ := exists_of_forall₂_right hsets (mem_entries_iff.2 hs')
    cases hk
    have hsome := mem_entries_iff.1 (hperm.mem_iff.2 hmem)
    rw [hs] at hsome
    cases hsome

theorem ReorderedInside.isSome_find? (h : d.ReorderedInside d') (k : String) :
    (d.find? k).isSome = (d'.find? k).isSome := by
  cases hs : d.find? k with
  | none => rw [h.find?_none hs]
  | some s =>
    obtain ⟨s', hs', -⟩ := h.find?_some hs
    rw [hs']
    rfl

end Dictionary

namespace Audit

open Ids (Value Condition Facet)

/-! ### Entities -/

/-- The entities differ in nothing but the order in which they keep their attributes, their property
sets and the properties of each set. -/
structure Reordered (e e' : Ifc.Entity) : Prop where
  attributes : e.attributes.Reordered e'.attributes
  propertySets : e.propertySets.ReorderedInside e'.propertySets
  others : e' = { e with attributes := e'.attributes, propertySets := e'.propertySets }

/-- **A list in the order of distinct names is given by its members.** -/
theorem eq_of_mem_iff {α κ : Type} [LinearOrder κ] (name : α → κ) {as bs : List α}
    (has : as.Pairwise fun a b => name a < name b) (hbs : bs.Pairwise fun a b => name a < name b)
    (hmem : ∀ a, a ∈ as ↔ a ∈ bs) : as = bs := by
  have hnodup : ∀ {cs : List α}, (cs.Pairwise fun a b => name a < name b) → cs.Nodup := by
    intro cs hcs
    refine hcs.imp ?_
    rintro a b hlt rfl
    exact lt_irrefl _ hlt
  have hperm : as.Perm bs := (List.perm_ext_iff_of_nodup (hnodup has) (hnodup hbs)).2 hmem
  exact hperm.eq_of_pairwise (fun a b _ _ hab hba => absurd hba (lt_asymm hab)) has hbs

theorem mem_map_selectedSets {e : Ifc.Entity} {set : Value} {k : String} :
    k ∈ (selectedSets e set).map (·.1) ↔
      (e.propertySets.find? k).isSome = true ∧ set.accepts k = true := by
  unfold selectedSets
  rw [List.mem_map, Option.isSome_iff_exists]
  constructor
  · rintro ⟨⟨k, s⟩, hmem, rfl⟩
    obtain ⟨hs, hok⟩ := mem_selected.1 hmem
    exact ⟨⟨s, Dictionary.mem_entries_iff.1 hs⟩, hok⟩
  · rintro ⟨⟨s, hs⟩, hok⟩
    exact ⟨(k, s), mem_selected.2 ⟨Dictionary.mem_entries_iff.2 hs, hok⟩, rfl⟩

namespace Reordered

variable {e e' : Ifc.Entity} (h : Reordered e e')

include h

/-- A property has the same value in both entities. -/
theorem property?_eq (set name : String) : e.property? set name = e'.property? set name := by
  unfold Ifc.Entity.property?
  cases hs : e.propertySets.find? set with
  | none => rw [h.propertySets.find?_none hs]
  | some s =>
    obtain ⟨s', hs', hreordered⟩ := h.propertySets.find?_some hs
    rw [hs', Option.bind_some, Option.bind_some, hreordered.find?_eq]

/-- The same properties compete. -/
theorem hasProperty_iff {set name : Value} {k : String ×ₗ String} {actual : String} :
    HasProperty e set name k actual ↔ HasProperty e' set name k actual := by
  constructor
  · rintro ⟨hfound, hset, hname⟩
    exact ⟨by rwa [← h.property?_eq], hset, hname⟩
  · rintro ⟨hfound, hset, hname⟩
    exact ⟨by rwa [h.property?_eq], hset, hname⟩

/-- The same attributes compete. -/
theorem hasAttribute_iff {name : Value} {k actual : String} :
    HasAttribute e name k actual ↔ HasAttribute e' name k actual := by
  constructor
  · rintro ⟨hfound, hne, hname⟩
    exact ⟨by rwa [← h.attributes.find?_eq], hne, hname⟩
  · rintro ⟨hfound, hne, hname⟩
    exact ⟨by rwa [h.attributes.find?_eq], hne, hname⟩

/-- **The same properties compete, in the same order.** -/
theorem propertyCandidates_eq (set name : Value) :
    propertyCandidates e set name = propertyCandidates e' set name := by
  apply eq_of_mem_iff fun c => toLex c.1
  · exact pairwise_propertyCandidates e set name
  · exact pairwise_propertyCandidates e' set name
  · rintro ⟨⟨s, p⟩, actual⟩
    rw [mem_propertyCandidates, mem_propertyCandidates, h.hasProperty_iff]

/-- **The same attributes compete, in the same order.** -/
theorem attributeCandidates_eq (name : Value) :
    attributeCandidates e name = attributeCandidates e' name := by
  apply eq_of_mem_iff fun c => c.1
  · exact pairwise_attributeCandidates e name
  · exact pairwise_attributeCandidates e' name
  · rintro ⟨k, actual⟩
    rw [mem_attributeCandidates, mem_attributeCandidates, h.hasAttribute_iff]

/-- The same sets are selected, in the same order. -/
theorem map_selectedSets (set : Value) :
    (selectedSets e set).map (·.1) = (selectedSets e' set).map (·.1) := by
  have hpairwise : ∀ e : Ifc.Entity, ((selectedSets e set).map (·.1)).Pairwise (· < ·) :=
    fun e => List.pairwise_map.2 (pairwise_selected e.propertySets.nodup)
  apply eq_of_mem_iff id (hpairwise e) (hpairwise e')
  intro k
  rw [mem_map_selectedSets, mem_map_selectedSets, h.propertySets.isSome_find?]

/-- The look-up of a property does not depend on the order. -/
theorem lookupProperty_eq (set name : Value) (value : Option Value) :
    lookupProperty e set name value = lookupProperty e' set name value := by
  have hempty : (selectedSets e set).isEmpty = (selectedSets e' set).isEmpty := by
    rw [← List.isEmpty_map, h.map_selectedSets, List.isEmpty_map]
  unfold lookupProperty
  rw [hempty, h.propertyCandidates_eq]

theorem lookupAttribute_eq (name : Value) (value : Option Value) :
    lookupAttribute e name value = lookupAttribute e' name value := by
  unfold lookupAttribute
  rw [h.attributeCandidates_eq]

theorem type_eq : e'.type = e.type := by
  rw [h.others]

/-- The order concerns properties and attributes only: all other texts are the same. -/
theorem relatedTexts_eq (c : Condition) : relatedTexts e c = relatedTexts e' c := by
  rw [h.others]
  cases c <;> rfl

/-- **Whether a condition holds does not depend on the order.** -/
theorem holds_eq (c : Condition) : c.holds e = c.holds e' := by
  unfold Condition.holds
  cases c with
  | property set name value dataType uri => simp only [h.lookupProperty_eq]
  | «attribute» name value => simp only [h.lookupAttribute_eq]
  | entity name predefinedType => rw [h.others]
  | classification system value uri => rw [h.others]
  | material value uri =>
    rw [h.others]
    cases value <;> rfl
  | partOf whole relation => rw [h.others]

theorem checkType_eq (name : Value) (predefined : Option Value) :
    checkType e name predefined = checkType e' name predefined := by
  unfold checkType
  simp only [h.type_eq, h.attributes.find?_eq]

theorem checkRelated_eq (c : Condition) (card : Ids.Cardinality) :
    checkRelated e c card = checkRelated e' c card := by
  unfold checkRelated relatedText
  simp only [h.holds_eq, h.relatedTexts_eq]

end Reordered

/-! ### Answers -/

/-- **The order of entries does not matter.** For two entities that differ in nothing but the order
in which they keep attributes, property sets and properties, a facet applies to both or to neither,
and a check of it, strict or not, finds the same for both: the same status, in the same words. -/
theorem check_of_reordered {e e' : Ifc.Entity} (h : Reordered e e') (strict : Bool) (f : Facet) :
    f.condition.holds e = f.condition.holds e' ∧ check strict e f = check strict e' f := by
  refine ⟨h.holds_eq f.condition, ?_⟩
  obtain ⟨condition, cardinality, instructions⟩ := f
  unfold check
  cases condition with
  | entity name predefinedType => exact h.checkType_eq name predefinedType
  | property set name value dataType uri => simp only [h.lookupProperty_eq]
  | «attribute» name value => simp only [h.lookupAttribute_eq]
  | classification system value uri => simp only [h.checkRelated_eq]
  | material value uri => simp only [h.checkRelated_eq]
  | partOf whole relation => simp only [h.checkRelated_eq]

/-- The wall with fire ratings, with all its entries in other orders. -/
def ratedWallReordered : Ifc.Entity where
  id := 1
  guid := "G"
  type := "IFCWALL"
  attributes := .ofList [("Tag", ""), ("Name", "W1")]
  propertySets := .ofList
    [("Pset_A", .ofList [("Rating", "REI30"), ("RatingB", "REI90"), ("RatingA", "none")]),
     ("Pset_B", .ofList [("Rating", "REI60")])]
  sourceFile := "a.ifc"

/-- Four properties compete, and two of them have an admitted value. The requirement passes for both
walls, with the same details. -/
theorem check_of_reordered_ratedWall :
    let sets : Value := .enumeration ["Pset_B", "Pset_A"]
    let names : Value := .enumeration ["RatingB", "Rating", "RatingA"]
    let ratings : Option Value := some (.enumeration ["REI60", "REI90"])
    let rating : Facet := ⟨.property sets names ratings none none, .required, none⟩
    Reordered ratedWall ratedWallReordered ∧
      ratedWall.propertySets.keys ≠ ratedWallReordered.propertySets.keys ∧
      (check true ratedWall rating).status = .pass ∧
      check true ratedWallReordered rating = check true ratedWall rating := by
  intro sets names ratings rating
  have h : Reordered ratedWall ratedWallReordered := by
    refine ⟨by decide +kernel,
      ⟨_, List.Perm.swap _ _ _, .cons ⟨rfl, ?_⟩ (.cons ⟨rfl, ?_⟩ .nil)⟩, rfl⟩
    · decide +kernel
    · decide +kernel
  have hcomplete : (Ids.Condition.property sets names ratings none none).isIncomplete = false := by
    decide +kernel
  have hhas : HasProperty ratedWall sets names (toLex ("Pset_A", "RatingB")) "REI90" :=
    ⟨by decide +kernel, by decide +kernel, by decide +kernel⟩
  have hadmits : Admits (some (.enumeration ["REI60", "REI90"])) "REI90" := by
    intro v hv
    cases hv
    decide +kernel
  have hpass : (check true ratedWall rating).status = .pass := by
    unfold check
    simp only [rating, hcomplete, Bool.false_eq_true, if_false]
    exact (settles_judge (answers_lookupProperty ratedWall sets names ratings) _ _).pass.2
      ⟨_, _, hhas, hadmits⟩
  exact ⟨h, by decide +kernel, hpass, (check_of_reordered h true rating).2.symm⟩

end Audit

end BimAudit
