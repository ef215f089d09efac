import BimAudit.Proofs.Dictionaries
import BimAudit.Proofs.ReadDocuments
import BimAudit.Workbook.Document

/-!
# Documents of workbooks are read back

Cells are trimmed and an empty cell counts as missing, so nearly all of a workbook's document is in
canonical form. There are two exceptions: a pattern is kept as it stands behind its mark, blanks
included, and a cell of nothing but bars is an enumeration without options. The first loses its
blanks when it is read back and the second is not found at all.

* `Value.Kept`: the restriction is none of the two.
* `Value.canonical_of_restriction?`, `Facet.FromCells`, `Specification.FromCells`: what cells and
  rows are turned into, one lemma per part.
* `Draft.FromCells`: the invariant of taking the rows of a workbook one after the other.
* `ofXml_toXml_of_workbook`: **the document of a workbook is read back exactly if all its
  restrictions are kept.**
-/

namespace BimAudit.Ids

/-! ### Restrictions that are kept -/

/-- The restriction is no pattern with blanks at its ends and no enumeration without options. -/
def Value.Kept : Value → Prop
  | pattern r => Trimmed r
  | enumeration os => os ≠ []
  | _ => True

instance : (v : Value) → Decidable v.Kept
  | .pattern r => inferInstanceAs (Decidable (Trimmed r))
  | .enumeration os => inferInstanceAs (Decidable (os ≠ []))
  | .simple _ | .bounds _ | .length _ => inferInstanceAs (Decidable True)

/-- What is canonical is kept. -/
theorem Value.Canonical.kept {v : Value} (h : v.Canonical) : v.Kept := by
  cases v with
  | pattern r => exact h
  | enumeration os => exact h.1
  | simple s | bounds b | length l => trivial

/-- All restrictions of a document. -/
def Document.values (d : Document) : List Value :=
  d.specifications.flatMap fun s => (s.applicability ++ s.requirements).flatMap Facet.values

/-- The facet says nothing that is blank, and its restrictions are canonical if they are kept. -/
structure Facet.FromCells (f : Facet) : Prop where
  values : ∀ v ∈ f.values, v.Kept → v.Canonical
  hints : ∀ o ∈ f.condition.hints, ∀ s ∈ o, Filled s
  instructions : f.instructions = none

/-- The texts are not blank. All facets are from cells, and all requirements ask for properties. -/
structure Specification.FromCells (s : Specification) : Prop where
  notes : ∀ o ∈ [s.identifier, s.description, s.instructions], ∀ t ∈ o, Filled t
  applicability : ∀ f ∈ s.applicability, f.FromCells ∧ f.cardinality = .required
  requirements : ∀ f ∈ s.requirements, f.FromCells ∧ f.kind = .property

/-- A facet from cells is canonical if its restrictions are kept. -/
theorem Facet.FromCells.canonical {f : Facet} (h : f.FromCells) (hkept : ∀ v ∈ f.values, v.Kept) :
    f.Canonical where
  values := fun v hv => h.values v hv (hkept v hv)
  hints := h.hints
  instructions := by
    intro s hs
    rw [h.instructions] at hs
    cases hs

/-- A specification from cells is canonical if its restrictions are kept. -/
theorem Specification.FromCells.canonical {s : Specification} (h : s.FromCells)
    (hkept : ∀ f ∈ s.applicability ++ s.requirements, ∀ v ∈ f.values, v.Kept) : s.Canonical where
  notes := h.notes
  applicability := by
    intro f hf
    obtain ⟨hcells, hcardinality⟩ := h.applicability f hf
    exact ⟨hcells.canonical (hkept f (List.mem_append_left _ hf)), hcardinality⟩
  requirements := by
    intro f hf
    obtain ⟨hcells, hkind⟩ := h.requirements f hf
    refine ⟨hcells.canonical (hkept f (List.mem_append_right _ hf)), fun hentity => ?_⟩
    rw [hkind] at hentity
    cases hentity

/-- **A document from cells is canonical exactly if all its restrictions are kept.** -/
theorem Document.canonical_iff_kept {d : Document} (hinfo : d.info.Written)
    (h : ∀ s ∈ d.specifications, s.FromCells) : d.Canonical ↔ ∀ v ∈ d.values, v.Kept := by
  constructor
  · intro hcanonical v hv
    obtain ⟨s, hs, hv⟩ := List.mem_flatMap.1 hv
    obtain ⟨f, hf, hv⟩ := List.mem_flatMap.1 hv
    have hfacet : f.Canonical := by
      obtain hf | hf := List.mem_append.1 hf
      · exact ((hcanonical.specifications s hs).applicability f hf).1
      · exact ((hcanonical.specifications s hs).requirements f hf).1
    exact (hfacet.values v hv).kept
  · intro hkept
    refine ⟨hinfo, fun s hs => (h s hs).canonical fun f hf v hv => hkept v ?_⟩
    exact List.mem_flatMap.2 ⟨s, hs, List.mem_flatMap.2 ⟨f, hf, hv⟩⟩

end BimAudit.Ids

namespace BimAudit.Workbook

open Ids (Facet FacetKind Specification Trimmed Filled)

-- what is in a cell is never looked at below, only what is known of it
attribute [local irreducible] Row.cell Row.cell? restriction?

/-! ### Cells -/

theorem trimmed_ofList {s : List Char} (h : Text.trim s = s) : Trimmed (String.ofList s) := by
  unfold Trimmed Text.strip
  rw [String.toList_ofList, h]

/-- The options in a cell are trimmed one by one. -/
theorem trimmed_of_mem_options {s : List Char} {o : String} (h : o ∈ options s) : Trimmed o := by
  obtain ⟨t, ht, rfl⟩ := List.mem_map.1 h
  obtain ⟨p, -, rfl⟩ := List.mem_map.1 (List.mem_filter.1 ht).1
  exact trimmed_ofList (Text.trim_trim p)

/-- The text of a bound is trimmed. -/
theorem trimmed_of_nonempty? {s : List Char} {t : String} (h : nonempty? s = some t)
    (hs : Text.trim s = s) : Trimmed t := by
  unfold nonempty? at h
  split at h
  · cases h
  · cases h
    exact trimmed_ofList hs

/-- Bounds are trimmed, and at least one of them is there. -/
theorem canonical_of_bounds? {s : List Char} {b : Ids.Bounds} (h : bounds? s = some b) :
    (Ids.Value.bounds b).Canonical := by
  obtain ⟨⟨low, high⟩, -, h⟩ := Option.bind_eq_some_iff.1 h
  dsimp only at h
  split at h
  case isTrue => cases h
  case isFalse hsome =>
    cases h
    refine ⟨fun hnone => hsome ?_, fun o ho t ht => ?_⟩
    · have hempty : ∀ r : List Char, nonempty? r = none → r.isEmpty = true := by
        intro r hr
        unfold nonempty? at hr
        split at hr
        case isTrue hr' => exact hr'
        case isFalse => cases hr
      obtain ⟨hlow, hhigh, -, -⟩ := Ids.Bounds.mk.inj hnone
      rw [hempty _ hlow, hempty _ hhigh]
      rfl
    · simp only [List.mem_cons, List.not_mem_nil, or_false] at ho
      obtain rfl | rfl | rfl | rfl := ho
      · exact trimmed_of_nonempty? ht (Text.trim_trim low)
      · cases ht
      · exact trimmed_of_nonempty? ht (Text.trim_trim high)
      · cases ht

/-- **What a cell restricts is canonical if it is kept.** -/
theorem canonical_of_restriction? {c : String} {v : Ids.Value} (h : restriction? c = some v)
    (hkept : v.Kept) : v.Canonical := by
  unfold restriction? restrictionOf? at h
  split at h
  · cases h
  split at h
  · -- a pattern is kept only if it is trimmed
    cases h
    exact hkept
  split at h
  · cases h
    exact ⟨hkept, fun o ho => trimmed_of_mem_options ho⟩
  split at h
  case h_1 b hb =>
    cases h
    exact canonical_of_bounds? hb
  case h_2 =>
    cases h
    exact trimmed_ofList (Text.trim_trim _)

/-- What a cell restricts is canonical if it is kept. -/
theorem canonical_of_restrictionIn {r : Row} {column : String}
    (hkept : (restrictionIn r column).Kept) : (restrictionIn r column).Canonical := by
  unfold restrictionIn at hkept ⊢
  cases h : restriction? (r.cell column) with
  | none =>
    show Trimmed ""
    decide
  | some v =>
    rw [h] at hkept
    exact canonical_of_restriction? h hkept

theorem eq_of_unlessEmpty {v u : Ids.Value} (h : unlessEmpty v = some u) : u = v := by
  unfold unlessEmpty at h
  split at h
  · cases h
  · exact (Option.some.inj h).symm

/-- A cell that is not empty holds a text with something in it, without blanks around it. -/
theorem filled_of_cell? {r : Row} {column s : String} (h : r.cell? column = some s) :
    Filled s := by
  unfold Row.cell? Row.cell at h
  split at h
  case isTrue => cases h
  case isFalse hne =>
    cases h
    rw [Bool.not_eq_true] at hne
    exact Ids.filled_strip hne

/-! ### Rows -/

/-- A condition is made of the cells of its row. -/
theorem fromCells_conditionOf (kind : FacetKind) (r : Row) :
    Facet.FromCells ⟨conditionOf kind r, .required, none⟩ where
  values := by
    have hname : ∀ v ∈ unlessEmpty (restrictionIn r "name"), v.Kept → v.Canonical := by
      intro v hv hkept
      obtain rfl := eq_of_unlessEmpty hv
      exact canonical_of_restrictionIn hkept
    intro v hv hkept
    cases kind with
    | entity | partOf =>
      obtain rfl := List.mem_singleton.1 hv
      exact canonical_of_restrictionIn hkept
    | property =>
      obtain rfl | hv := List.mem_cons.1 hv
      · exact canonical_of_restrictionIn hkept
      obtain rfl | hv := List.mem_cons.1 hv
      · exact canonical_of_restrictionIn hkept
      · exact canonical_of_restriction? (Option.mem_toList.1 hv) hkept
    | «attribute» =>
      obtain rfl | hv := List.mem_cons.1 hv
      · exact canonical_of_restrictionIn hkept
      · exact canonical_of_restriction? (Option.mem_toList.1 hv) hkept
    | classification =>
      obtain hv | hv := List.mem_append.1 hv
      · exact hname v (Option.mem_toList.1 hv) hkept
      · exact canonical_of_restriction? (Option.mem_toList.1 hv) hkept
    | material =>
      obtain hv | ⟨-, hv⟩ := Option.or_eq_some_iff.1 (Option.mem_toList.1 hv)
      · exact canonical_of_restriction? hv hkept
      · exact hname v hv hkept
  hints := by
    intro o ho s hs
    -- applicability has no columns for hints
    have hnone : o = none := by
      cases kind with
      | property =>
        obtain rfl | ho := List.mem_cons.1 ho
        · rfl
        · exact List.mem_singleton.1 ho
      | classification | material => exact List.mem_singleton.1 ho
      | entity | «attribute» | partOf => cases ho
    rw [hnone] at hs
    cases hs
  instructions := rfl

/-- The names of the property are trimmed, its type is not blank and its restriction canonical if it
is kept. -/
structure Property.FromCells (p : Property) : Prop where
  set : Trimmed p.set
  name : Trimmed p.name
  dataType : ∀ s ∈ p.dataType, Filled s
  value : ∀ v ∈ p.value, v.Kept → v.Canonical

/-- A property is made of the cells of its row. -/
theorem fromCells_of_propertyOf? {r : Row} {p : Property} (h : propertyOf? r = some p) :
    p.FromCells := by
  obtain ⟨set, hset, h⟩ := Option.bind_eq_some_iff.1 h
  obtain ⟨name, hname, h⟩ := Option.bind_eq_some_iff.1 h
  cases h
  exact {
    set := (filled_of_cell? hset).1
    name := (filled_of_cell? hname).1
    dataType := fun s hs => filled_of_cell? hs
    value := fun v hv => canonical_of_restriction? hv }

theorem fromCells_of_mem_properties {w : Workbook} {p : Property} (h : p ∈ w.properties) :
    p.FromCells := by
  obtain ⟨r, -, hr⟩ := List.mem_filterMap.1 h
  exact fromCells_of_propertyOf? hr

/-- A requirement is a property from cells with what its own row says of it. -/
theorem fromCells_requirementOf {p : Property} (h : p.FromCells) (r : Row) :
    (requirementOf r p).FromCells where
  values := by
    intro v hv hkept
    obtain rfl | hv := List.mem_cons.1 hv
    · exact h.set
    obtain rfl | hv := List.mem_cons.1 hv
    · exact h.name
    -- the row's own restriction comes first
    obtain hv | ⟨-, hv⟩ := Option.or_eq_some_iff.1 (Option.mem_toList.1 hv)
    · exact canonical_of_restriction? hv hkept
    · exact h.value v hv hkept
  hints := by
    intro o ho s hs
    obtain rfl | ho := List.mem_cons.1 ho
    · exact h.dataType s hs
    · rw [List.mem_singleton.1 ho] at hs
      cases hs
  instructions := rfl

/-- A specification is made of the cells of its row, and begins without facets. -/
theorem fromCells_specificationOf (row : Nat) (r : Row) : (specificationOf row r).FromCells where
  notes := by
    intro o ho s hs
    simp only [List.mem_cons, List.not_mem_nil, or_false] at ho
    obtain rfl | rfl | rfl := ho <;> exact filled_of_cell? hs
  applicability := by
    intro f hf
    cases hf
  requirements := by
    intro f hf
    cases hf

/-! ### Sheets -/

namespace Draft

/-- All specifications found so far are from cells. -/
def FromCells (d : Draft) : Prop := ∀ e ∈ d.specifications.entries, e.2.FromCells

variable {d : Draft}

/-- Another specification from cells may be put into the draft. -/
theorem FromCells.insert (h : d.FromCells) {s : Specification} (hs : s.FromCells) (id : String) :
    FromCells { d with specifications := d.specifications.insert id s } := by
  intro e he
  obtain rfl | he := Dictionary.mem_of_mem_put he
  · exact hs
  · exact h e he

/-- A change of one specification that keeps it one from cells keeps all of them. -/
theorem FromCells.change (h : d.FromCells) {f : Specification → Specification ⊕ Warning}
    (hf : ∀ s t, f s = .inl t → s.FromCells → t.FromCells) (sheet : String) (row : Nat)
    (id : String) : (d.change sheet row id f).FromCells := by
  unfold Draft.change
  split
  case h_1 => exact h
  case h_2 s hfind =>
    split
    case h_1 t ht =>
      obtain ⟨e, he, rfl⟩ := Dictionary.exists_mem_of_find? hfind
      exact h.insert (hf e.2 t ht (h e he)) id
    case h_2 => exact h

/-- What every row keeps, the whole sheet keeps. -/
theorem FromCells.take {step : Draft → Nat → Row → Draft}
    (hstep : ∀ d row r, FromCells d → (step d row r).FromCells) (h : d.FromCells)
    (rows : List Row) : (d.take step rows).FromCells := by
  unfold Draft.take
  induction rows.zipIdx 2 generalizing d with
  | nil => exact h
  | cons r rows ih => exact ih (hstep d r.2 r.1 h)

end Draft

variable {d : Draft}

/-- A row of the first sheet adds a specification from cells. -/
theorem fromCells_takeSpecification (h : d.FromCells) (row : Nat) (r : Row) :
    (takeSpecification d row r).FromCells := by
  unfold takeSpecification
  dsimp only
  split
  case h_1 => exact h
  case h_2 => exact h.insert (fromCells_specificationOf row r) _

/-- A row of conditions adds a facet from cells. -/
theorem fromCells_takeApplicability (h : d.FromCells) (row : Nat) (r : Row) :
    (takeApplicability d row r).FromCells := by
  refine h.change (fun s t hst hs => ?_) "applicability" row _
  split at hst
  case h_1 => cases hst
  case h_2 kind _ =>
    cases hst
    refine { notes := hs.notes, applicability := ?_, requirements := hs.requirements }
    intro f hf
    obtain hf | hf := List.mem_append.1 hf
    · exact hs.applicability f hf
    · rw [List.mem_singleton.1 hf]
      exact ⟨fromCells_conditionOf kind r, rfl⟩

/-- A row of requirements adds properties from cells. -/
theorem fromCells_takeRequirement {ps : List Property} (hps : ∀ p ∈ ps, p.FromCells)
    (h : d.FromCells) (row : Nat) (r : Row) : (takeRequirement ps d row r).FromCells := by
  refine h.change (fun s t hst hs => ?_) "element_psets" row _
  split at hst
  case h_1 => cases hst
  case h_2 =>
    cases hst
    refine { notes := hs.notes, applicability := hs.applicability, requirements := ?_ }
    intro f hf
    obtain hf | hf := List.mem_append.1 hf
    · exact hs.requirements f hf
    · obtain ⟨p, hp, rfl⟩ := List.mem_map.1 hf
      exact ⟨fromCells_requirementOf (hps p (List.mem_filter.1 hp).1) r, rfl⟩

/-- **Everything in a draft comes from cells.** The induction is on the rows of each sheet. -/
theorem fromCells_draft (w : Workbook) : w.draft.FromCells := by
  have hempty : Draft.FromCells {} := fun e he => by cases he
  have hspecifications := hempty.take
    (fun _ row r h => fromCells_takeSpecification h row r) (w.rows "specifications")
  have happlicability := hspecifications.take
    (fun _ row r h => fromCells_takeApplicability h row r) (w.rows "applicability")
  have hproperties : ∀ p ∈ w.properties, p.FromCells := fun _ hp => fromCells_of_mem_properties hp
  exact happlicability.take
    (fun _ row r h => fromCells_takeRequirement hproperties h row r) (w.rows "element_psets")

/-- No field of the information is blank. -/
theorem written_infoOf (w : Workbook) : (infoOf w).Written := by
  unfold infoOf
  split
  case h_1 => exact Ids.Info.written_empty
  case h_2 r _ =>
    refine Ids.Info.written_empty.foldl (fun i n h => ?_) _
    split
    case h_1 value hvalue => exact h.set n (filled_of_cell? hvalue)
    case h_2 => exact h

/-! ### The document -/

/-- **The document of a workbook is read back** from the text that is written for it exactly if it
has no pattern with blanks at its ends and no enumeration without options. There is a document
whenever the required sheets are there. -/
theorem ofXml_toXml_of_workbook (w : Workbook)
    (h : ∀ n ∈ requiredSheets, (w.sheet? n).isSome) : ∃ d ws, w.document? = .ok (d, ws) ∧
      (Ids.Document.ofXml d.toXml = .ok d ↔ ∀ v ∈ d.values, v.Kept) := by
  have hfind : requiredSheets.find? (fun n => (w.sheet? n).isNone) = none := by
    rw [List.find?_eq_none]
    intro n hn
    rw [← Option.not_isSome, h n hn]
    exact Bool.false_ne_true
  refine ⟨_, _, by rw [document?, hfind], ?_⟩
  rw [Ids.ofXml_toXml_iff]
  refine Ids.Document.canonical_iff_kept (written_infoOf w) fun s hs => ?_
  obtain ⟨e, he, rfl⟩ := List.mem_map.1 hs
  exact fromCells_draft w e he

/-- A workbook that requires a property, with a cell for its value. -/
def workbookWith (cell : String) : Workbook :=
  ((({} : Workbook).insert "info" []).insert "specifications" [[("spec_id", " S")]]
    |>.insert "psets_lookup" [[("pset_name", "P"), ("property_name", "Q"), ("value", cell)]]
    |>.insert "element_psets" [[("spec_id", "S"), ("pset_name", "P"), ("cardinality", "optional")]])

/-- The document in it. -/
def documentWith (v : Ids.Value) : Ids.Document where
  specifications :=
    [{  name := "S"
        ifcVersion := "IFC4"
        requirements :=
          [⟨.property (.simple "P") (.simple "Q") (some v) none none, .optional, none⟩] }]

/-- A workbook with two options in a cell, and nothing but a blank between its bars, is read. -/
theorem ofXml_toXml_of_workbook_two_options :
    (∀ n ∈ requiredSheets, ((workbookWith "A | |B").sheet? n).isSome) ∧
      ∃ d ws, (workbookWith "A | |B").document? = .ok (d, ws) ∧
        (Ids.Document.ofXml d.toXml = .ok d ↔ ∀ v ∈ d.values, v.Kept) := by
  have h : ∀ n ∈ requiredSheets, ((workbookWith "A | |B").sheet? n).isSome := by decide +kernel
  exact ⟨h, ofXml_toXml_of_workbook _ h⟩

/-- Blanks around a pattern are lost, and so is an enumeration without options. -/
theorem ofXml_toXml_ne_of_workbook :
    ((workbookWith "re: x").document? = .ok (documentWith (.pattern " x"), []) ∧
      Ids.Document.ofXml (documentWith (.pattern " x")).toXml
        ≠ .ok (documentWith (.pattern " x"))) ∧
    ((workbookWith "|").document? = .ok (documentWith (.enumeration []), []) ∧
      Ids.Document.ofXml (documentWith (.enumeration [])).toXml
        ≠ .ok (documentWith (.enumeration []))) := by
  refine ⟨⟨Ids.eq_ok_of_toOption (by decide +kernel), ?_⟩,
    ⟨Ids.eq_ok_of_toOption (by decide +kernel), ?_⟩⟩ <;>
  · rw [ne_eq, Ids.ofXml_toXml_iff]
    decide +kernel

end BimAudit.Workbook
