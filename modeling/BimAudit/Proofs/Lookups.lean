import Mathlib.Data.Prod.Lex
import Mathlib.Data.String.Basic
import BimAudit.Audit.Check
import BimAudit.Proofs.Dictionaries

/-!
# What a look-up finds

The restrictions on names may select several properties or attributes of an entity, so several
values compete. They are looked at in the order of their names, for properties first by the set and
then by the property, and the first one that is admitted is found. Which one this is can be said
without any search: it is the one with the least name. All this holds whatever patterns mean.

* `rejectionBy?_eq_none_iff`: there is no reason to reject a value if and only if it is admitted.
* `mem_propertyCandidates`, `pairwise_propertyCandidates`: the values that compete, each once and in
  the order of their names. `mem_attributeCandidates`, `pairwise_attributeCandidates`: the same for
  attributes.
* `answers_lookup`: what is answered about values in the order of their names.
* `settles_check_required`: **a requirement passes if and only if one of the selected values is
  admitted, and it quotes the one with the least name.**
-/

namespace BimAudit.Audit

open Ids (Value Patterns)

/-! ### Entries in the order of their names -/

variable {α : Type} {entries : List (String × α)} {ok : String → Bool}

theorem mem_selected {x : String × α} : x ∈ selected entries ok ↔ x ∈ entries ∧ ok x.1 = true := by
  unfold selected
  rw [List.mem_mergeSort, List.mem_filter]

/-- Entries with distinct names are put into the order of their names. -/
theorem pairwise_selected (hd : (entries.map (·.1)).Nodup) :
    (selected entries ok).Pairwise (·.1 < ·.1) := by
  have hperm : (selected entries ok).Perm (entries.filter (ok ·.1)) := List.mergeSort_perm _ _
  have htrans : ∀ a b c : String × α, decide (a.1 ≤ b.1) = true → decide (b.1 ≤ c.1) = true →
      decide (a.1 ≤ c.1) = true := by
    intro a b c hab hbc
    exact decide_eq_true (le_trans (of_decide_eq_true hab) (of_decide_eq_true hbc))
  have htotal : ∀ a b : String × α, (decide (a.1 ≤ b.1) || decide (b.1 ≤ a.1)) = true := by
    intro a b
    simpa using le_total a.1 b.1
  have hsorted : (selected entries ok).Pairwise (·.1 ≤ ·.1) := by
    have h := List.pairwise_mergeSort htrans htotal (entries.filter (ok ·.1))
    unfold selected
    simpa using h
  have hdistinct : (selected entries ok).Pairwise (·.1 ≠ ·.1) := by
    have hsub : ((entries.filter (ok ·.1)).map (·.1)).Nodup :=
      hd.sublist (List.filter_sublist.map _)
    exact List.pairwise_map.1 ((hperm.map Prod.fst).nodup_iff.2 hsub)
  exact hsorted.imp₂ (fun _ _ hle hne => lt_of_le_of_ne hle hne) hdistinct

section

variable [Patterns] {e : Ifc.Entity} {set name v : Value} {expected : Option Value} {t : String}


/-- The value is admitted: there is no restriction, or the restriction accepts it. -/
def Admits (expected : Option Value) (actual : String) : Prop :=
  ∀ v ∈ expected, v.accepts actual = true

/-- A pattern without a meaning matches nothing. -/
theorem accepts_eq_false_of_not_isPattern {r : String} (h : Ids.isPattern r = false) (t : String) :
    (Value.pattern r).accepts t = false := by
  unfold Ids.isPattern at h
  have hnone : Patterns.meaning? r = none := by simpa using h
  unfold Value.accepts Ids.patternAccepts
  simp only [hnone, Option.any_none]

theorem rejection?_eq_none_iff : rejection? v t = none ↔ v.accepts t = true := by
  unfold rejection?
  cases v with
  | pattern r =>
    by_cases hr : Ids.isPattern r = true
    · simp [hr]
    · have hfalse : Ids.isPattern r = false := by simpa using hr
      simp [hfalse, accepts_eq_false_of_not_isPattern hfalse t]
  | simple s => simp
  | enumeration os => simp
  | bounds b => simp
  | length l => simp

/-- **There is a reason to reject a value unless it is admitted.** -/
theorem rejectionBy?_eq_none_iff : rejectionBy? expected t = none ↔ Admits expected t := by
  unfold rejectionBy? Admits
  cases expected with
  | none => simp
  | some v => simp [rejection?_eq_none_iff]

/-! ### The values that compete -/

/-- A property of the entity that the restrictions on set and property select, by these two names,
and its value. -/
structure HasProperty (e : Ifc.Entity) (set name : Value) (k : String ×ₗ String) (actual : String) :
    Prop where
  found : e.property? (ofLex k).1 (ofLex k).2 = some actual
  inSet : set.accepts (ofLex k).1 = true
  named : name.accepts (ofLex k).2 = true

/-- An attribute of the entity that the restriction on its name selects, and its value, which is not
empty. -/
structure HasAttribute (e : Ifc.Entity) (name : Value) (k actual : String) : Prop where
  found : e.attributes.find? k = some actual
  nonempty : actual ≠ ""
  named : name.accepts k = true

/-- The candidates are the properties that the entity has. -/
theorem mem_propertyCandidates {s p actual : String} :
    ((s, p), actual) ∈ propertyCandidates e set name
      ↔ HasProperty e set name (toLex (s, p)) actual := by
  unfold propertyCandidates selectedSets
  rw [List.mem_flatMap]
  constructor
  · rintro ⟨⟨s', d⟩, hset, hmem⟩
    obtain ⟨⟨p', a⟩, hprop, heq⟩ := List.mem_map.1 hmem
    cases heq
    obtain ⟨hs, hok⟩ := mem_selected.1 hset
    obtain ⟨hp, hname⟩ := mem_selected.1 hprop
    have hfind := Dictionary.mem_entries_iff.1 hs
    refine ⟨?_, hok, hname⟩
    simp only [ofLex_toLex, Ifc.Entity.property?, hfind, Option.bind_some]
    exact Dictionary.mem_entries_iff.1 hp
  · rintro ⟨hproperty, hok, hname⟩
    obtain ⟨d, hd, hfind⟩ := Option.bind_eq_some_iff.1 hproperty
    have hs : (s, d) ∈ e.propertySets.entries := Dictionary.mem_entries_iff.2 hd
    have hp : (p, actual) ∈ d.entries := Dictionary.mem_entries_iff.2 hfind
    exact ⟨(s, d), mem_selected.2 ⟨hs, hok⟩,
      List.mem_map.2 ⟨(p, actual), mem_selected.2 ⟨hp, hname⟩, rfl⟩⟩

/-- Properties come in the order of the names of their sets, and within a set by their own names. -/
theorem pairwise_propertyCandidates (e : Ifc.Entity) (set name : Value) :
    (propertyCandidates e set name).Pairwise fun a b => toLex a.1 < toLex b.1 := by
  have hsets : (selectedSets e set).Pairwise (·.1 < ·.1) := pairwise_selected e.propertySets.nodup
  unfold propertyCandidates
  rw [List.pairwise_flatMap]
  constructor
  · intro s _
    rw [List.pairwise_map]
    refine (pairwise_selected s.2.nodup).imp ?_
    intro a b hab
    exact Prod.Lex.toLex_lt_toLex.2 (.inr ⟨rfl, hab⟩)
  · refine hsets.imp ?_
    intro s s' hlt x hx y hy
    obtain ⟨a, -, rfl⟩ := List.mem_map.1 hx
    obtain ⟨b, -, rfl⟩ := List.mem_map.1 hy
    exact Prod.Lex.toLex_lt_toLex.2 (.inl hlt)

/-- The candidates are the attributes that the entity has. -/
theorem mem_attributeCandidates {k actual : String} :
    (k, actual) ∈ attributeCandidates e name ↔ HasAttribute e name k actual := by
  unfold attributeCandidates
  rw [mem_selected, List.mem_filter, Dictionary.mem_entries_iff]
  constructor
  · rintro ⟨⟨hfind, hne⟩, hname⟩
    exact ⟨hfind, by simpa using hne, hname⟩
  · rintro ⟨hfind, hne, hname⟩
    exact ⟨⟨hfind, by simpa using hne⟩, hname⟩

/-- The candidates are in the order of their names, each once. -/
theorem pairwise_attributeCandidates (e : Ifc.Entity) (name : Value) :
    (attributeCandidates e name).Pairwise (·.1 < ·.1) := by
  have hd : ((e.attributes.entries.filter (!·.2.isEmpty)).map (·.1)).Nodup :=
    e.attributes.nodup.sublist (List.filter_sublist.map _)
  exact pairwise_selected hd

/-! ### Answers -/

/-- Of the admitted values it is the one with the least name. -/
structure Foremost {κ : Type} [LinearOrder κ] (has : κ → String → Prop) (expected : Option Value)
    (k : κ) (actual : String) : Prop where
  competes : has k actual
  admitted : Admits expected actual
  least : ∀ k' actual', has k' actual' → Admits expected actual' → k ≤ k'

/-- What a look-up answers about values that compete, where `has k actual` says that a value stands
under the name `k`. -/
structure Answers {κ : Type} [LinearOrder κ] (has : κ → String → Prop) (expected : Option Value)
    (l : Lookup) : Prop where
  /-- Something is found if and only if some value is admitted. -/
  found : (∃ d, l = .found d) ↔ ∃ k actual, has k actual ∧ Admits expected actual
  /-- What is found is the admitted value with the least name. -/
  foremost : ∀ d, l = .found d →
    ∃ k actual, Foremost has expected k actual ∧ d = "Value: " ++ Value.quoted actual
  /-- The values are at fault if and only if there are some and none is admitted. -/
  mismatch : (∃ d, l = .mismatch d) ↔
    (∃ k actual, has k actual) ∧ ¬∃ k actual, has k actual ∧ Admits expected actual
  /-- Nothing is there if and only if there are no values. -/
  absent : (∃ d, l = .absent d) ↔ ¬∃ k actual, has k actual

section Answers

variable {κ : Type} [LinearOrder κ] {has : κ → String → Prop} {k : κ} {actual : String}
  {cs : List (κ × String)}

/-- Where there is no candidate, nothing is the answer. -/
theorem answers_absent (h : ¬∃ k actual, has k actual) (expected : Option Value)
    (nothing : String) : Answers has expected (.absent nothing) := by
  have hnone : ¬∃ k actual, has k actual ∧ Admits expected actual := by
    rintro ⟨k, actual, hhas, -⟩
    exact h ⟨k, actual, hhas⟩
  constructor
  · simp [hnone]
  · intro d hd
    cases hd
  · simp [h]
  · simp [h]

/-- Where no candidate is admitted, the answer is a mismatch. -/
theorem answers_mismatch (h : ∃ k actual, has k actual)
    (hnone : ¬∃ k actual, has k actual ∧ Admits expected actual) (details : String) :
    Answers has expected (.mismatch details) := by
  constructor
  · simp [hnone]
  · intro d hd
    cases hd
  · simp [hnone, h]
  · simp [h]

/-- Where there is a foremost candidate, it is the answer. -/
theorem answers_found (h : Foremost has expected k actual) :
    Answers has expected (.found ("Value: " ++ Value.quoted actual)) := by
  have hhas : ∃ k actual, has k actual := ⟨k, actual, h.competes⟩
  have hadmitted : ∃ k actual, has k actual ∧ Admits expected actual :=
    ⟨k, actual, h.competes, h.admitted⟩
  constructor
  · simp [hadmitted]
  · intro d hd
    cases hd
    exact ⟨k, actual, h, rfl⟩
  · simp [hadmitted]
  · simp [hhas]

/-- What a search in the order of the names finds first has the least name. -/
theorem foremost_of_find? (hsorted : cs.Pairwise (·.1 < ·.1))
    (hmem : ∀ k actual, (k, actual) ∈ cs ↔ has k actual)
    (hfind : cs.find? (fun c => (rejectionBy? expected c.2).isNone) = some (k, actual)) :
    Foremost has expected k actual := by
  obtain ⟨hok, before, behind, hsplit, hbefore⟩ := List.find?_eq_some_iff_append.1 hfind
  refine ⟨?_, ?_, ?_⟩
  · rw [← hmem, hsplit]
    exact List.mem_append_right _ List.mem_cons_self
  · exact rejectionBy?_eq_none_iff.1 (Option.isNone_iff_eq_none.1 hok)
  · intro k' actual' hhas' hadmitted'
    have hmem' : (k', actual') ∈ before ++ (k, actual) :: behind := by rwa [← hsplit, hmem]
    rw [hsplit] at hsorted
    obtain hb | hb := List.mem_append.1 hmem'
    · -- what comes before is not admitted
      have hrejected := hbefore _ hb
      simp [rejectionBy?_eq_none_iff.2 hadmitted'] at hrejected
    · obtain heq | hb := List.mem_cons.1 hb
      · cases heq
        exact le_rfl
      · have hcons := (List.pairwise_append.1 hsorted).2.1
        exact le_of_lt ((List.pairwise_cons.1 hcons).1 _ hb)

/-- **A look-up in the order of the names answers for the least name.** -/
theorem answers_lookup (hsorted : cs.Pairwise (·.1 < ·.1))
    (hmem : ∀ k actual, (k, actual) ∈ cs ↔ has k actual) (expected : Option Value)
    (nothing : String) : Answers has expected (lookup expected nothing (cs.map (·.2))) := by
  unfold lookup
  rw [List.find?_map]
  cases hfind : cs.find? ((fun actual => (rejectionBy? expected actual).isNone) ∘ (·.2)) with
  | some c => exact answers_found (foremost_of_find? hsorted hmem hfind)
  | none =>
    have hnone : ¬∃ k actual, has k actual ∧ Admits expected actual := by
      rintro ⟨k, actual, hhas, hadmitted⟩
      have hrejected := List.find?_eq_none.1 hfind (k, actual) ((hmem k actual).2 hhas)
      simp [rejectionBy?_eq_none_iff.2 hadmitted] at hrejected
    cases cs with
    | nil =>
      have hempty : ¬∃ k actual, has k actual := by
        rintro ⟨k, actual, hhas⟩
        cases (hmem k actual).2 hhas
      exact answers_absent hempty expected nothing
    | cons c cs =>
      have hhas : has c.1 c.2 := (hmem c.1 c.2).1 List.mem_cons_self
      exact answers_mismatch ⟨c.1, c.2, hhas⟩ hnone _

end Answers

/-- **The look-up of a property answers** for the properties that the entity has. -/
theorem answers_lookupProperty (e : Ifc.Entity) (set name : Value) (expected : Option Value) :
    Answers (HasProperty e set name) expected (lookupProperty e set name expected) := by
  unfold lookupProperty
  split
  · next hempty =>
    -- without a set there is no property
    refine answers_absent ?_ expected _
    rintro ⟨k, actual, hhas⟩
    have hmem : ((ofLex k), actual) ∈ propertyCandidates e set name :=
      mem_propertyCandidates.2 hhas
    unfold propertyCandidates at hmem
    rw [List.isEmpty_iff.1 hempty] at hmem
    cases hmem
  · have hsorted : ((propertyCandidates e set name).map fun c => (toLex c.1, c.2)).Pairwise
        (·.1 < ·.1) := List.pairwise_map.2 (pairwise_propertyCandidates e set name)
    have hmem : ∀ k actual, (k, actual) ∈ ((propertyCandidates e set name).map fun c =>
        (toLex c.1, c.2)) ↔ HasProperty e set name k actual := by
      intro k actual
      rw [List.mem_map]
      constructor
      · rintro ⟨c, hc, heq⟩
        cases heq
        exact mem_propertyCandidates.1 hc
      · intro hhas
        exact ⟨(ofLex k, actual), mem_propertyCandidates.2 hhas, rfl⟩
    have h := answers_lookup hsorted hmem expected
      ("Property " ++ Value.quoted (label name) ++ " not found in " ++ Value.quoted (label set))
    rw [List.map_map] at h
    exact h

/-- **The look-up of an attribute answers** for the attributes that the entity has. -/
theorem answers_lookupAttribute (e : Ifc.Entity) (name : Value) (expected : Option Value) :
    Answers (HasAttribute e name) expected (lookupAttribute e name expected) :=
  answers_lookup (pairwise_attributeCandidates e name) (fun _ _ => mem_attributeCandidates)
    expected _

/-! ### Requirements -/

/-- What a requirement that must hold says, on top of what is answered about the values. -/
structure Settles {κ : Type} [LinearOrder κ] (has : κ → String → Prop) (expected : Option Value)
    (l : Lookup) (f : Finding) : Prop extends Answers has expected l where
  /-- It passes if and only if some value is admitted. -/
  pass : f.status = .pass ↔ ∃ k actual, has k actual ∧ Admits expected actual
  /-- If it does, the details quote the admitted value with the least name. -/
  details : f.status = .pass →
    ∃ k actual, Foremost has expected k actual ∧ f.details = "Value: " ++ Value.quoted actual

/-- What answers for the candidates settles a requirement on them. -/
theorem settles_judge {κ : Type} [LinearOrder κ] {has : κ → String → Prop} {l : Lookup}
    (h : Answers has expected l) (kind : Ids.FacetKind) (message : String) :
    Settles has expected l (judge kind message .required l) := by
  refine ⟨h, ?_, ?_⟩
  · rw [← h.found]
    cases l <;> simp [judge, finding, Status.ofBool]
  · intro hpass
    cases l with
    | found d => exact h.foremost d rfl
    | absent d => simp [judge, finding, Status.ofBool] at hpass
    | mismatch d => simp [judge, finding, Status.ofBool] at hpass

end

/-- A wall with fire ratings in two sets, and with an empty tag. -/
def ratedWall : Ifc.Entity where
  id := 1
  guid := "G"
  type := "IFCWALL"
  attributes := .ofList [("Name", "W1"), ("Tag", "")]
  propertySets := .ofList
    [("Pset_B", .ofList [("Rating", "REI60")]),
     ("Pset_A", .ofList [("RatingB", "REI90"), ("RatingA", "none"), ("Rating", "REI30")])]
  sourceFile := "a.ifc"

end BimAudit.Audit
