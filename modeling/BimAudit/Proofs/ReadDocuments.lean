import BimAudit.Proofs.DocumentRoundTrip

/-!
# Documents that were read

The reader trims what it reads and takes blank texts for missing, so nearly all that it makes is in
canonical form. One thing is not: it takes over the cardinality of a requirement of every kind, and
the writer leaves out the cardinality of an entity's type, which the schema does not have. What is
written and read again is the same document but for these cardinalities.

* `Value.canonical_of_ofElement?`, `Facet.canonical_of_ofElement?`,
  `Specification.canonical_asWritten`: what the reader makes of an element, one lemma per part.
* `Document.canonical_of_ofXml`: **a document that was read is canonical as it is written.**
* `ofXml_toXml_iff`: **exactly the canonical documents are read back from their text.**
* `ofXml_toXml_of_read`: **a document that was read, written and read again.**
-/

namespace BimAudit.Ids

open Xml (Element)

/-! ### Texts -/

theorem trimmed_strip (s : String) : Trimmed (Text.strip s) := Text.strip_strip s

theorem trimmed_constraintText (e : Element) : Trimmed (constraintText e) := trimmed_strip _

/-- A text that is not empty after trimming is filled. -/
theorem filled_strip {s : String} (h : (Text.strip s).isEmpty = false) : Filled (Text.strip s) := by
  refine ⟨trimmed_strip s, fun hempty => ?_⟩
  rw [hempty] at h
  cases h

/-- An attribute that is read is filled. -/
theorem filled_of_attributeText? {e : Element} {n s : String} (h : attributeText? e n = some s) :
    Filled s := by
  obtain ⟨hmap, hne⟩ := Option.filter_eq_some_iff.1 h
  obtain ⟨t, -, rfl⟩ := Option.map_eq_some_iff.1 hmap
  apply filled_strip
  rwa [Bool.not_eq_true'] at hne

/-! ### Restrictions -/

namespace Value

/-- Whichever restriction is found, its texts are those of constraints. -/
theorem canonical_of_ofRestriction? {e : Element} {v : Value} (h : ofRestriction? e = some v) :
    v.Canonical := by
  have hget : ∀ n, ∀ s ∈ (e.child? n).map constraintText, Trimmed s := by
    intro n s hs
    obtain ⟨c, -, rfl⟩ := Option.map_eq_some_iff.1 hs
    exact trimmed_constraintText c
  unfold ofRestriction? at h
  dsimp only at h
  split at h
  case h_1 o os hoptions =>
    cases h
    refine ⟨List.cons_ne_nil o os, fun t ht => ?_⟩
    rw [← hoptions] at ht
    obtain ⟨c, -, rfl⟩ := List.mem_map.1 ht
    exact trimmed_constraintText c
  case h_2 =>
    split at h
    case h_1 r hpattern =>
      cases h
      exact hget "pattern" r hpattern
    case h_2 =>
      split at h
      case isTrue hbounds =>
        cases h
        refine ⟨hbounds, fun o ho => ?_⟩
        simp only [List.mem_cons, List.not_mem_nil, or_false] at ho
        obtain rfl | rfl | rfl | rfl := ho <;> exact hget _
      case isFalse =>
        split at h
        case isTrue hlength =>
          cases h
          refine ⟨hlength, fun o ho => ?_⟩
          simp only [List.mem_cons, List.not_mem_nil, or_false] at ho
          obtain rfl | rfl | rfl := ho <;> exact hget _
        case isFalse => cases h

/-- **A restriction that is read is canonical.** -/
theorem canonical_of_ofElement? {e : Element} {v : Value} (h : ofElement? e = some v) :
    v.Canonical := by
  unfold ofElement? at h
  split at h
  case h_1 s _ =>
    cases h
    exact trimmed_strip s.text
  case h_2 =>
    obtain ⟨r, -, hr⟩ := Option.bind_eq_some_iff.1 h
    exact canonical_of_ofRestriction? hr

end Value

theorem canonical_of_childValue? {e : Element} {n : String} {v : Value}
    (h : childValue? e n = some v) : v.Canonical := by
  obtain ⟨c, -, hc⟩ := Option.bind_eq_some_iff.1 h
  exact Value.canonical_of_ofElement? hc

/-- The empty literal that takes the place of a missing restriction is canonical too. -/
theorem canonical_needed {o : Option Value} (h : ∀ v ∈ o, v.Canonical) : (needed o).Canonical := by
  cases o with
  | none =>
    show Trimmed ""
    decide
  | some v => exact h v rfl

/-! ### Conditions and facets -/

namespace Condition

/-- All restrictions of a condition are canonical. -/
theorem canonical_of_mem_values {kind : FacetKind} {e : Element} {v : Value}
    (h : v ∈ (ofElement kind e).values) : v.Canonical := by
  have hneeded : ∀ n, (needed (childValue? e n)).Canonical :=
    fun n => canonical_needed fun w hw => canonical_of_childValue? hw
  cases kind with
  | entity =>
    obtain rfl | h := List.mem_cons.1 h
    · exact hneeded "name"
    · exact canonical_of_childValue? (Option.mem_toList.1 h)
  | property =>
    obtain rfl | h := List.mem_cons.1 h
    · exact hneeded "propertySet"
    obtain rfl | h := List.mem_cons.1 h
    · refine canonical_needed fun w hw => ?_
      obtain hw | ⟨-, hw⟩ := Option.or_eq_some_iff.1 hw <;> exact canonical_of_childValue? hw
    · exact canonical_of_childValue? (Option.mem_toList.1 h)
  | «attribute» =>
    obtain rfl | h := List.mem_cons.1 h
    · exact hneeded "name"
    · exact canonical_of_childValue? (Option.mem_toList.1 h)
  | classification =>
    obtain h | h := List.mem_append.1 h <;>
      exact canonical_of_childValue? (Option.mem_toList.1 h)
  | material => exact canonical_of_childValue? (Option.mem_toList.1 h)
  | partOf =>
    obtain rfl := List.mem_singleton.1 h
    refine canonical_needed fun w hw => ?_
    obtain ⟨c, -, hc⟩ := Option.bind_eq_some_iff.1 hw
    obtain hc | ⟨-, hc⟩ := Option.or_eq_some_iff.1 hc
    · exact canonical_of_childValue? hc
    · exact Value.canonical_of_ofElement? hc

/-- The type of data and the address that are read are filled. -/
theorem filled_of_mem_hints {kind : FacetKind} {e : Element} {o : Option String}
    (ho : o ∈ (ofElement kind e).hints) {s : String} (hs : s ∈ o) : Filled s := by
  -- every hint is the text of an attribute
  have hattribute : ∃ n, o = attributeText? e n := by
    cases kind with
    | property =>
      obtain rfl | ho := List.mem_cons.1 ho
      · exact ⟨_, rfl⟩
      · exact ⟨_, List.mem_singleton.1 ho⟩
    | classification => exact ⟨_, List.mem_singleton.1 ho⟩
    | material => exact ⟨_, List.mem_singleton.1 ho⟩
    | entity | «attribute» | partOf => cases ho
  obtain ⟨n, rfl⟩ := hattribute
  exact filled_of_attributeText? hs

end Condition

namespace Facet

/-- **A facet that is read is canonical.** -/
theorem canonical_of_ofElement? {isRequirement : Bool} {e : Element} {f : Facet}
    (h : ofElement? isRequirement e = some f) : f.Canonical := by
  obtain ⟨kind, -, rfl⟩ := Option.map_eq_some_iff.1 h
  exact {
    values := fun v hv => Condition.canonical_of_mem_values hv
    hints := fun o ho s hs => Condition.filled_of_mem_hints ho hs
    instructions := fun s hs => filled_of_attributeText? hs }

/-- Only requirements have a cardinality of their own. -/
theorem cardinality_of_ofElement? {e : Element} {f : Facet} (h : ofElement? false e = some f) :
    f.cardinality = .required := by
  obtain ⟨kind, -, rfl⟩ := Option.map_eq_some_iff.1 h
  rfl

end Facet

/-- Each facet has been read from an element. -/
theorem of_mem_facetsIn {e : Element} {name : String} {isRequirement : Bool} {f : Facet}
    (h : f ∈ facetsIn e name isRequirement) : ∃ c, Facet.ofElement? isRequirement c = some f := by
  unfold facetsIn at h
  split at h
  case h_1 =>
    obtain ⟨c, -, hc⟩ := List.mem_filterMap.1 h
    exact ⟨c, hc⟩
  case h_2 => cases h

/-! ### Cardinalities that are not written -/

/-- The requirement as it is written: without a cardinality of its own if it asks for a type. -/
def Facet.asWritten (f : Facet) : Facet :=
  if f.kind = .entity then f.withCardinality .required else f

/-- The specification with its requirements as they are written. -/
def Specification.asWritten (s : Specification) : Specification :=
  { s with requirements := s.requirements.map Facet.asWritten }

/-- The document with its requirements as they are written. -/
def Document.asWritten (d : Document) : Document :=
  { d with specifications := d.specifications.map Specification.asWritten }

/-- No requirement for a type of entity has another cardinality than the usual one. -/
def Document.UsualTypes (d : Document) : Prop :=
  ∀ s ∈ d.specifications, ∀ f ∈ s.requirements, f.kind = .entity → f.cardinality = .required

instance (d : Document) : Decidable d.UsualTypes :=
  inferInstanceAs (Decidable
    (∀ s ∈ d.specifications, ∀ f ∈ s.requirements, f.kind = .entity → f.cardinality = .required))

namespace Facet

variable (f : Facet)

theorem condition_asWritten : f.asWritten.condition = f.condition := by
  unfold asWritten
  split <;> rfl

theorem instructions_asWritten : f.asWritten.instructions = f.instructions := by
  unfold asWritten
  split <;> rfl

/-- The cardinality of an entity is not written. -/
theorem cardinality_asWritten (h : f.kind = .entity) : f.asWritten.cardinality = .required := by
  unfold asWritten
  rw [if_pos h]
  rfl

variable {f} in
/-- What is written of a canonical facet is canonical. -/
theorem Canonical.asWritten (h : f.Canonical) : f.asWritten.Canonical where
  values := by
    rw [Facet.values, f.condition_asWritten]
    exact h.values
  hints := by
    rw [f.condition_asWritten]
    exact h.hints
  instructions := by
    rw [f.instructions_asWritten]
    exact h.instructions

/-- A facet is written like the one that is read back. -/
theorem toMarkup_asWritten : f.asWritten.toMarkup true = f.toMarkup true := by
  unfold asWritten
  split
  case isTrue hkind =>
    -- the attributes do not mention the cardinality
    have hattributes : (f.withCardinality .required).attributes true = f.attributes true := by
      obtain ⟨condition, cardinality, instructions⟩ := f
      cases condition with
      | entity name predefinedType => rfl
      | _ => cases hkind
    unfold toMarkup
    rw [hattributes]
    rfl
  case isFalse => rfl

/-- A facet is read back as it is unless it is an entity with a cardinality of its own. -/
theorem asWritten_eq_self_iff :
    f.asWritten = f ↔ (f.kind = .entity → f.cardinality = .required) := by
  constructor
  · intro h hkind
    rw [← h]
    exact f.cardinality_asWritten hkind
  · intro h
    unfold asWritten
    split
    case isTrue hkind =>
      unfold withCardinality
      rw [← h hkind]
    case isFalse => rfl

end Facet

/-- A specification is written like the one that is read back. -/
theorem Specification.toMarkup_asWritten (s : Specification) :
    s.asWritten.toMarkup = s.toMarkup := by
  have hrequirements : s.asWritten.requirements.map (Facet.toMarkup true)
      = s.requirements.map (Facet.toMarkup true) := by
    show (s.requirements.map Facet.asWritten).map (Facet.toMarkup true) = _
    rw [List.map_map]
    exact List.map_congr_left fun f _ => f.toMarkup_asWritten
  unfold toMarkup
  rw [hrequirements]
  rfl

/-- **A document is written like the one that is read back.** -/
theorem Document.toXml_asWritten (d : Document) : d.asWritten.toXml = d.toXml := by
  have hspecifications : d.asWritten.specifications.map Specification.toMarkup
      = d.specifications.map Specification.toMarkup := by
    show (d.specifications.map Specification.asWritten).map Specification.toMarkup = _
    rw [List.map_map]
    exact List.map_congr_left fun s _ => s.toMarkup_asWritten
  unfold toXml toMarkup
  rw [hspecifications]
  rfl

theorem map_eq_self_iff {α : Type} {g : α → α} {l : List α} :
    l.map g = l ↔ ∀ a ∈ l, g a = a := by
  constructor
  · intro h a ha
    exact List.map_eq_map_iff.1 (h.trans (List.map_id l).symm) a ha
  · intro h
    rw [List.map_congr_left h, List.map_id']

/-- A document is read back as it is exactly if its entities have the usual cardinality. -/
theorem Document.asWritten_eq_self_iff (d : Document) : d.asWritten = d ↔ d.UsualTypes := by
  have hspecification : ∀ s : Specification, s.asWritten = s ↔
      ∀ f ∈ s.requirements, f.kind = .entity → f.cardinality = .required := by
    intro s
    simp only [← Facet.asWritten_eq_self_iff]
    rw [← map_eq_self_iff]
    constructor
    · exact congrArg Specification.requirements
    · intro h
      unfold Specification.asWritten
      rw [h]
  unfold UsualTypes
  simp only [← hspecification]
  rw [← map_eq_self_iff]
  constructor
  · exact congrArg Document.specifications
  · intro h
    unfold asWritten
    rw [h]

/-! ### Specifications -/

/-- What is read is canonical but for the cardinalities that are not written. -/
theorem Specification.canonical_asWritten (e : Element) :
    (Specification.ofElement e).asWritten.Canonical where
  notes := by
    intro o ho s hs
    simp only [List.mem_cons, List.not_mem_nil, or_false] at ho
    obtain rfl | rfl | rfl := ho <;> exact filled_of_attributeText? hs
  applicability := by
    intro f hf
    obtain ⟨c, hc⟩ := of_mem_facetsIn hf
    exact ⟨Facet.canonical_of_ofElement? hc, Facet.cardinality_of_ofElement? hc⟩
  requirements := by
    intro f hf
    obtain ⟨g, hg, rfl⟩ := List.mem_map.1 hf
    obtain ⟨c, hc⟩ := of_mem_facetsIn hg
    refine ⟨(Facet.canonical_of_ofElement? hc).asWritten, fun hkind => ?_⟩
    apply g.cardinality_asWritten
    rwa [Facet.kind, g.condition_asWritten] at hkind

/-! ### Information -/

namespace Info

/-- Every field is not blank, or missing. -/
def Written (i : Info) : Prop := ∀ f ∈ i.fields, ∀ s ∈ f.2, Filled s

instance (i : Info) : Decidable i.Written :=
  inferInstanceAs (Decidable (∀ f ∈ i.fields, ∀ s ∈ f.2, Filled s))

theorem written_empty : ({} : Info).Written := by decide

/-- A field is what it was before, or has the new value. -/
theorem mem_fields_set {i : Info} {name value : String} {f : String × Option String}
    (h : f ∈ (i.set name value).fields) : f ∈ i.fields ∨ f.2 = some value := by
  unfold set at h
  split at h <;>
    simp only [fields, List.mem_cons, List.not_mem_nil, or_false] at h ⊢ <;> grind

/-- A filled field may be set. -/
theorem Written.set {i : Info} (h : i.Written) (name : String) {value : String}
    (hvalue : Filled value) : (i.set name value).Written := by
  intro f hf s hs
  obtain hf | hf := mem_fields_set hf
  · exact h f hf s hs
  · rw [Option.mem_def, hf] at hs
    cases hs
    exact hvalue

/-- An element of the information sets a field that is filled, or none. -/
theorem Written.addElement {i : Info} (h : i.Written) (e : Element) :
    (i.addElement e).Written := by
  unfold Info.addElement
  dsimp only
  split
  case isTrue => exact h
  case isFalse hne =>
    rw [Bool.not_eq_true] at hne
    exact h.set e.name (filled_strip hne)

/-- What every step of a reader keeps, the whole of it keeps. -/
theorem Written.foldl {α : Type} {step : Info → α → Info} {i : Info} (h : i.Written)
    (hstep : ∀ i a, Written i → (step i a).Written) (l : List α) : (l.foldl step i).Written := by
  induction l generalizing i with
  | nil => exact h
  | cons a l ih => exact ih (hstep i a h)

end Info

/-! ### Documents -/

namespace Document

variable {d : Document}

/-- What is written of a document that has been read is canonical. -/
theorem canonical_of_ofElement {root : Element} (h : ofElement root = .ok d) :
    d.asWritten.Canonical := by
  unfold ofElement at h
  split at h
  case isTrue => cases h
  case isFalse =>
    cases h
    refine ⟨?_, fun s hs => ?_⟩
    · show Info.Written _
      split
      case h_1 e _ => exact Info.written_empty.foldl (fun _ c h => h.addElement c) e.children
      case h_2 => exact Info.written_empty
    · obtain ⟨r, hr, rfl⟩ := List.mem_map.1 hs
      dsimp only at hr
      split at hr
      case h_1 =>
        obtain ⟨c, -, rfl⟩ := List.mem_map.1 hr
        exact Specification.canonical_asWritten c
      case h_2 => cases hr

/-- **A document that was read is canonical as it is written**, whatever the text says. -/
theorem canonical_of_ofXml {s : String} (h : ofXml s = .ok d) : d.asWritten.Canonical := by
  unfold ofXml at h
  split at h
  case h_1 root _ => exact canonical_of_ofElement h
  case h_2 => cases h

/-- A document that is canonical as it is written is read back as it is written. -/
theorem ofXml_toXml_asWritten (h : d.asWritten.Canonical) : ofXml d.toXml = .ok d.asWritten := by
  rw [← d.toXml_asWritten]
  exact ofXml_toXml d.asWritten h

end Document

/-- **Exactly the canonical documents are read back from their text.** -/
theorem ofXml_toXml_iff {d : Document} : Document.ofXml d.toXml = .ok d ↔ d.Canonical := by
  constructor
  · intro h
    have hcanonical := Document.canonical_of_ofXml h
    have hagain := Document.ofXml_toXml_asWritten hcanonical
    -- reading gives one result, so the document is as it is written
    rw [h] at hagain
    rwa [← Except.ok.inj hagain] at hcanonical
  · exact ofXml_toXml d

/-- **A document that was read, written and read again** has only lost the cardinalities that the
writer leaves out. It is the same document if there are none. -/
theorem ofXml_toXml_of_read {s : String} {d : Document} (h : Document.ofXml s = .ok d) :
    Document.ofXml d.toXml = .ok d.asWritten ∧
      (Document.ofXml d.toXml = .ok d ↔ d.UsualTypes) := by
  have hagain := Document.ofXml_toXml_asWritten (Document.canonical_of_ofXml h)
  refine ⟨hagain, ?_⟩
  rw [hagain, ← d.asWritten_eq_self_iff]
  constructor
  · exact Except.ok.inj
  · exact congrArg Except.ok

theorem eq_ok_of_toOption {ε α : Type} {x : Except ε α} {a : α} (h : x.toOption = some a) :
    x = .ok a := by
  cases x with
  | error _ => cases h
  | ok b => exact congrArg Except.ok (Option.some.inj h)

/-- A specification that no entity may be a door. -/
def prohibitedDoor : String :=
  "<ids><specifications><specification name=' S'><requirements>" ++
  "<entity cardinality='prohibited'><name><simpleValue> DOOR</simpleValue></name></entity>" ++
  "</requirements></specification></specifications></ids>"

/-- The document that says so. -/
def prohibitedDoorDocument : Document where
  specifications :=
    [{  name := " S"
        ifcVersion := ""
        requirements := [⟨.entity (.simple "DOOR") none, .prohibited, none⟩] }]

/-- The prohibition is read. -/
theorem ofXml_prohibitedDoor : Document.ofXml prohibitedDoor = .ok prohibitedDoorDocument :=
  eq_ok_of_toOption (by decide +kernel)

/-- The prohibition is not written, so what is read back is not what was read. -/
theorem ofXml_toXml_of_read_prohibitedDoor :
    Document.ofXml prohibitedDoor = .ok prohibitedDoorDocument ∧
    Document.ofXml prohibitedDoorDocument.toXml = .ok prohibitedDoorDocument.asWritten ∧
      (Document.ofXml prohibitedDoorDocument.toXml = .ok prohibitedDoorDocument ↔
        prohibitedDoorDocument.UsualTypes) :=
  ⟨ofXml_prohibitedDoor, ofXml_toXml_of_read ofXml_prohibitedDoor⟩

/-- A cardinality that is read but not written is lost. -/
theorem ofXml_toXml_ne_prohibitedDoor :
    Document.ofXml prohibitedDoor = .ok prohibitedDoorDocument ∧
    Document.ofXml prohibitedDoorDocument.toXml ≠ .ok prohibitedDoorDocument := by
  refine ⟨ofXml_prohibitedDoor, fun h => ?_⟩
  have hcanonical := ofXml_toXml_iff.1 h
  revert hcanonical
  decide +kernel

end BimAudit.Ids
