import BimAudit.Proofs.Dictionaries
import BimAudit.Workbook.Document

/-!
# Every row of a workbook counts

The sheets of a workbook are joined by the ids of specifications and the names of property sets. No
row gets lost on the way: a row of `specifications` is the first one with its id or it is warned of,
and a row of `applicability` or `element_psets` adds to the one specification that it names or it is
warned of. What a specification holds are the contributions of the rows that name it, in their
order.

* `Row.conditionFor`, `requirementsFor`: what a row adds to the specification with an id.
* `Joined`: the document and the warnings, sheet by sheet and row by row.
* `Draft.adds_change`: a row changes the specification that it names and no other.
  `Draft.adds_take`: the rows of a sheet do so one after the other.
* `joined_of_document?`: **the document of a workbook is the join of its sheets.**
-/

namespace BimAudit.Workbook

open Ids (Facet FacetKind Specification)

/-! ### What rows add -/

/-- The rows of a sheet with their numbers. -/
def numberedRows (w : Workbook) (sheet : String) : List (Row × Nat) := (w.rows sheet).zipIdx 2

/-- The id of the specification in a numbered row. -/
def idOf (p : Row × Nat) : String := specificationId p.2 p.1

/-- No row above has the same id. -/
def isFirst (rows : List (Row × Nat)) (p : Row × Nat) : Bool :=
  !rows.any fun q => q.2 < p.2 && idOf q = idOf p

/-- The rows of `specifications` that are the first ones with their ids. -/
def firstRows (w : Workbook) : List (Row × Nat) :=
  (w.numberedRows "specifications").filter (isFirst (w.numberedRows "specifications"))

/-- The other rows of `specifications`. -/
def repeatedRows (w : Workbook) : List (Row × Nat) :=
  (w.numberedRows "specifications").filter (!isFirst (w.numberedRows "specifications") ·)

/-- The ids of the specifications. -/
def ids (w : Workbook) : List String := w.firstRows.map idOf

/-- The facet that a row of `applicability` adds to the specification with an id. -/
def conditionFor (id : String) (r : Row) : Option Facet :=
  if r.cell "spec_id" = id then
    (FacetKind.ofName? (r.cell "facet")).map fun kind => ⟨conditionOf kind r, .required, none⟩
  else none

/-- The warning of a row of `applicability`, if there is something wrong with it. -/
def conditionWarning? (ids : List String) (p : Row × Nat) : Option Warning :=
  if p.1.cell "spec_id" ∉ ids then
    some (.unknownSpecification "applicability" p.2 (p.1.cell "spec_id"))
  else if (FacetKind.ofName? (p.1.cell "facet")).isNone then
    some (.unknownFacet p.2 (p.1.cell "facet"))
  else none

/-- The rows of `psets_lookup` with the properties of a set, where both names have to be there. -/
def lookupRows (w : Workbook) (set : String) : List Row :=
  (w.rows "psets_lookup").filter fun q =>
    q.cell "pset_name" ≠ "" ∧ q.cell "property_name" ≠ "" ∧ q.cell "pset_name" = set

/-- The requirement by a row of `element_psets` of the property in a row of `psets_lookup`. The
value in the former comes first. -/
def requirementBy (r q : Row) : Facet where
  condition := .property (.simple (r.cell "pset_name")) (.simple (q.cell "property_name"))
    ((restriction? (r.cell "value")).or (restriction? (q.cell "value"))) (q.cell? "data_type") none
  cardinality := .ofText (r.cell "cardinality")

/-- The facets that a row of `element_psets` adds to the specification with an id. -/
def requirementsFor (w : Workbook) (id : String) (r : Row) : List Facet :=
  if r.cell "spec_id" = id then (w.lookupRows (r.cell "pset_name")).map (requirementBy r) else []

/-- The warning of a row of `element_psets`, if there is something wrong with it. -/
def requirementWarning? (w : Workbook) (ids : List String) (p : Row × Nat) : Option Warning :=
  if p.1.cell "spec_id" ∉ ids then
    some (.unknownSpecification "element_psets" p.2 (p.1.cell "spec_id"))
  else if w.lookupRows (p.1.cell "pset_name") = [] then
    some (.unknownPropertySet p.2 (p.1.cell "pset_name"))
  else none

/-- The specification in a row with all that other rows add to it. -/
def joinedSpecification (w : Workbook) (p : Row × Nat) : Specification :=
  { specificationOf p.2 p.1 with
    applicability := (w.rows "applicability").filterMap (conditionFor (idOf p))
    requirements := (w.rows "element_psets").flatMap (w.requirementsFor (idOf p)) }

/-- A row either adds to the one specification that it names, or it is warned of. -/
inductive Settled (ids : List String) (named : String) (added : String → List Facet) :
    Option Warning → Prop where
  | adds : named ∈ ids → added named ≠ [] → (∀ id ∈ ids, id ≠ named → added id = []) →
    Settled ids named added none
  | warns (warning : Warning) : (∀ id ∈ ids, added id = []) →
    Settled ids named added (some warning)

/-- The document and the warnings are what the rows of the sheets give when they are joined. -/
structure Joined (w : Workbook) (d : Ids.Document) (warnings : List Warning) : Prop where
  specifications : d.specifications = w.firstRows.map w.joinedSpecification
  /-- No id has two specifications. -/
  nodup : w.ids.Nodup
  /-- Every id has a specification. -/
  complete : ∀ p ∈ w.numberedRows "specifications", idOf p ∈ w.ids
  warnings : warnings =
    w.repeatedRows.map (fun p => .duplicateSpecification p.2 (idOf p)) ++
    (w.numberedRows "applicability").filterMap (conditionWarning? w.ids) ++
    (w.numberedRows "element_psets").filterMap (w.requirementWarning? w.ids)
  applicability : ∀ p ∈ w.numberedRows "applicability", Settled w.ids (p.1.cell "spec_id")
    (fun id => (conditionFor id p.1).toList) (conditionWarning? w.ids p)
  requirements : ∀ p ∈ w.numberedRows "element_psets", Settled w.ids (p.1.cell "spec_id")
    (fun id => w.requirementsFor id p.1) (w.requirementWarning? w.ids p)

/-! ### The rows of specifications -/

theorem isFirst_append_of_lt {rows : List (Row × Nat)} {p q : Row × Nat} (h : q.2 < p.2) :
    isFirst (rows ++ [p]) q = isFirst rows q := by
  have hlate : decide (p.2 < q.2) = false := decide_eq_false (by omega)
  simp [isFirst, List.any_append, hlate]

/-- A row below others is the first one with its id if none of them has it. -/
theorem isFirst_append_self {rows : List (Row × Nat)} {p : Row × Nat}
    (h : ∀ q ∈ rows, q.2 < p.2) :
    isFirst (rows ++ [p]) p = true ↔ ∀ q ∈ rows, idOf q ≠ idOf p := by
  simp only [isFirst, List.any_append, List.any_cons, List.any_nil, Nat.lt_irrefl, decide_false,
    Bool.false_and, Bool.or_false, Bool.not_eq_true', List.any_eq_false, Bool.and_eq_true,
    decide_eq_true_eq, not_and]
  exact ⟨fun hne q hq => hne q hq (h q hq), fun hne q hq _ => hne q hq⟩

/-- The draft after some rows of `specifications`. -/
structure Drafted (rows : List (Row × Nat)) (d : Draft) : Prop where
  entries : d.specifications.entries =
    (rows.filter (isFirst rows)).map fun p => (idOf p, specificationOf p.2 p.1)
  warnings : d.warnings =
    (rows.filter (!isFirst rows ·)).map fun p => .duplicateSpecification p.2 (idOf p)
  mem_keys : ∀ id, id ∈ d.specifications.keys ↔ ∃ p ∈ rows, idOf p = id

/-- A row with an id that is there already is warned of. -/
theorem takeSpecification_of_mem {d : Draft} {p : Row × Nat}
    (h : idOf p ∈ d.specifications.keys) :
    takeSpecification d p.2 p.1 = d.warn (.duplicateSpecification p.2 (idOf p)) := by
  unfold takeSpecification
  dsimp only
  split
  case h_1 => rfl
  case h_2 hnone => exact absurd h (Dictionary.find?_eq_none_iff.1 hnone)

/-- A row with a new id adds its specification. -/
theorem takeSpecification_of_not_mem {d : Draft} {p : Row × Nat}
    (h : idOf p ∉ d.specifications.keys) : takeSpecification d p.2 p.1 =
      { d with specifications :=
          d.specifications.insert (idOf p) (specificationOf p.2 p.1) } := by
  unfold takeSpecification
  dsimp only
  split
  case h_1 hsome =>
    have hnone := Dictionary.find?_eq_none_iff.2 h
    rw [idOf, hsome] at hnone
    cases hnone
  case h_2 => rfl

/-- A further row is added if its id is new, and warned of if not. -/
theorem Drafted.takeSpecification {rows : List (Row × Nat)} {d : Draft} (h : Drafted rows d)
    {p : Row × Nat} (hlt : ∀ q ∈ rows, q.2 < p.2) :
    Drafted (rows ++ [p]) (takeSpecification d p.2 p.1) := by
  have hfirst : rows.filter (isFirst (rows ++ [p])) = rows.filter (isFirst rows) :=
    List.filter_congr fun q hq => isFirst_append_of_lt (hlt q hq)
  have hrest : rows.filter (!isFirst (rows ++ [p]) ·) = rows.filter (!isFirst rows ·) :=
    List.filter_congr fun q hq => by rw [isFirst_append_of_lt (hlt q hq)]
  have hself : isFirst (rows ++ [p]) p = true ↔ idOf p ∉ d.specifications.keys := by
    rw [isFirst_append_self hlt, h.mem_keys]
    simp
  by_cases hmem : idOf p ∈ d.specifications.keys
  · have hlast : isFirst (rows ++ [p]) p = false := by
      rw [← Bool.not_eq_true, hself]
      exact fun hnone => hnone hmem
    rw [takeSpecification_of_mem hmem]
    constructor
    · rw [List.filter_append, hfirst, List.filter_singleton, hlast]
      simpa [Draft.warn] using h.entries
    · rw [List.filter_append, hrest, List.filter_singleton, hlast, List.map_append, ← h.warnings]
      rfl
    · intro id
      rw [Draft.warn, h.mem_keys]
      obtain ⟨q, hq, hqp⟩ := (h.mem_keys _).1 hmem
      constructor
      · rintro ⟨a, ha, rfl⟩
        exact ⟨a, List.mem_append_left _ ha, rfl⟩
      · rintro ⟨a, ha, rfl⟩
        obtain ha | ha := List.mem_append.1 ha
        · exact ⟨a, ha, rfl⟩
        · rw [List.mem_singleton.1 ha]
          exact ⟨q, hq, hqp⟩
  · have hlast : isFirst (rows ++ [p]) p = true := hself.2 hmem
    rw [takeSpecification_of_not_mem hmem]
    have hentries := Dictionary.entries_insert_of_not_mem hmem (specificationOf p.2 p.1)
    constructor
    · rw [hentries, List.filter_append, hfirst, List.filter_singleton, hlast, List.map_append,
        h.entries]
      rfl
    · rw [List.filter_append, hrest, List.filter_singleton, hlast]
      simpa using h.warnings
    · intro id
      have hkeys : id ∈ (d.specifications.insert (idOf p) (specificationOf p.2 p.1)).keys ↔
          id = idOf p ∨ id ∈ d.specifications.keys := Dictionary.mem_keys_put
      rw [hkeys, h.mem_keys]
      simp only [List.mem_append, List.mem_singleton, or_and_right, exists_or, exists_eq_left]
      exact ⟨fun hor => hor.symm.imp_right Eq.symm, fun hor => hor.symm.imp_left Eq.symm⟩

/-- **Each id is drafted once, by the first row with it**, and every other row is warned of. -/
theorem drafted_foldl (rows : List (Row × Nat)) (h : rows.Pairwise (·.2 < ·.2)) :
    Drafted rows (rows.foldl (fun d p => takeSpecification d p.2 p.1) {}) := by
  induction rows using List.reverseRecOn with
  | nil =>
    refine ⟨rfl, rfl, fun id => ⟨fun h => ?_, fun h => ?_⟩⟩
    · cases h
    · obtain ⟨p, hp, -⟩ := h
      cases hp
  | append_singleton rows p ih =>
    obtain ⟨hrows, -, hlt⟩ := List.pairwise_append.1 h
    rw [List.foldl_concat]
    exact (ih hrows).takeSpecification fun q hq => hlt q hq p (List.mem_singleton.2 rfl)

/-- The rows of a sheet have ascending numbers. -/
theorem pairwise_numberedRows (w : Workbook) (sheet : String) :
    (w.numberedRows sheet).Pairwise (·.2 < ·.2) := by
  refine List.pairwise_map.1 ?_
  rw [numberedRows, List.zipIdx_map_snd]
  exact List.pairwise_lt_range'

/-! ### The rows that add to a specification -/

namespace Draft

variable {d d' d'' : Draft} {add add' : String → Specification → Specification}
  {ws ws' : List Warning}

/-- The second draft is the first one with something added to the specifications by their ids, and
with further warnings. -/
structure Adds (d d' : Draft) (add : String → Specification → Specification)
    (ws : List Warning) : Prop where
  entries : d'.specifications.entries = d.specifications.entries.map fun e => (e.1, add e.1 e.2)
  warnings : d'.warnings = d.warnings ++ ws

/-- No row of the other sheets changes the ids. -/
theorem Adds.keys (h : d.Adds d' add ws) : d'.specifications.keys = d.specifications.keys := by
  rw [Dictionary.keys, h.entries, List.map_map]
  rfl

theorem Adds.congr (h : d.Adds d' add ws)
    (hadd : ∀ id ∈ d.specifications.keys, ∀ s, add id s = add' id s) : d.Adds d' add' ws := by
  refine ⟨h.entries.trans (List.map_congr_left fun e he => ?_), h.warnings⟩
  rw [hadd e.1 (List.mem_map_of_mem he)]

/-- What two rows add is added one after the other. -/
theorem Adds.trans (h : d.Adds d' add ws) (h' : d'.Adds d'' add' ws') :
    d.Adds d'' (fun id s => add' id (add id s)) (ws ++ ws') := by
  constructor
  · rw [h'.entries, h.entries, List.map_map]
    rfl
  · rw [h'.warnings, h.warnings, List.append_assoc]

theorem adds_nothing (d : Draft) : d.Adds d (fun _ s => s) [] :=
  ⟨(List.map_id _).symm, (List.append_nil _).symm⟩

theorem adds_warn (d : Draft) (w : Warning) : d.Adds (d.warn w) (fun _ s => s) [w] :=
  ⟨(List.map_id _).symm, rfl⟩

/-- **What a row adds, the rows of a sheet add one after the other.** -/
theorem adds_take {step : Draft → Nat → Row → Draft}
    {add : String → Row → Specification → Specification}
    {warning? : List String → Row × Nat → Option Warning}
    (hstep : ∀ (d : Draft) (p : Row × Nat), d.Adds (step d p.2 p.1) (fun id s => add id p.1 s)
      (warning? d.specifications.keys p).toList) (d : Draft) (rows : List Row) :
    d.Adds (d.take step rows) (fun id s => rows.foldl (fun s r => add id r s) s)
      ((rows.zipIdx 2).filterMap (warning? d.specifications.keys)) := by
  have hrun : ∀ (l : List (Row × Nat)) (d : Draft),
      d.Adds (l.foldl (fun d p => step d p.2 p.1) d)
        (fun id s => (l.map (·.1)).foldl (fun s r => add id r s) s)
        (l.filterMap (warning? d.specifications.keys)) := by
    intro l
    induction l with
    | nil => exact adds_nothing
    | cons p l ih =>
      intro d
      have h := (hstep d p).trans (ih (step d p.2 p.1))
      rw [(hstep d p).keys] at h
      rw [List.filterMap_cons]
      cases hw : warning? d.specifications.keys p <;> simpa [hw] using h
  have hrows := hrun (rows.zipIdx 2) d
  rw [List.zipIdx_map_fst] at hrows
  exact hrows

variable {sheet id : String} {row : Nat} {f : Specification → Specification ⊕ Warning}

theorem change_of_not_mem (h : id ∉ d.specifications.keys) :
    d.change sheet row id f = d.warn (.unknownSpecification sheet row id) := by
  unfold change
  rw [Dictionary.find?_eq_none_iff.2 h]

/-- A row that is warned of changes nothing else. -/
theorem change_of_warning (h : id ∈ d.specifications.keys) {w : Warning}
    (hf : ∀ s, f s = .inr w) : d.change sheet row id f = d.warn w := by
  unfold change
  split
  case h_1 hnone => exact absurd h (Dictionary.find?_eq_none_iff.1 hnone)
  case h_2 s _ => rw [hf s]

/-- A row changes the specification that it names and no other. -/
theorem adds_change_of_mem (h : id ∈ d.specifications.keys)
    {g : Specification → Specification} (hf : ∀ s, f s = .inl (g s)) :
    d.Adds (d.change sheet row id f) (fun i s => if id = i then g s else s) [] := by
  unfold change
  split
  case h_1 hnone => exact absurd h (Dictionary.find?_eq_none_iff.1 hnone)
  case h_2 s hs =>
    rw [hf s]
    refine ⟨?_, (List.append_nil _).symm⟩
    rw [Dictionary.entries_insert_of_mem h]
    refine List.map_congr_left fun e he => ?_
    by_cases hid : e.1 = id
    · rw [if_pos hid, if_pos hid.symm, Dictionary.eq_of_find? hs he hid, hid]
    · rw [if_neg hid, if_neg (Ne.symm hid)]

/-- **A change of the specification with an id leaves the others alone.** It comes with a warning if
and only if it changes nothing. -/
theorem adds_change (d : Draft) (sheet : String) (row : Nat) (id : String)
    (warning? : Option Warning) (g : Specification → Specification)
    (hf : ∀ s, f s = warning?.elim (.inl (g s)) .inr) :
    d.Adds (d.change sheet row id f) (fun i s => if id = i ∧ warning? = none then g s else s)
      (if id ∉ d.specifications.keys then some (.unknownSpecification sheet row id)
        else warning?).toList := by
  by_cases hid : id ∈ d.specifications.keys
  · rw [if_neg (not_not.2 hid)]
    cases warning? with
    | none => simpa using adds_change_of_mem hid hf
    | some w =>
      rw [change_of_warning hid hf]
      exact (d.adds_warn w).congr fun i _ s => by simp
  · rw [if_pos hid, change_of_not_mem hid]
    refine (d.adds_warn _).congr fun i hi s => (if_neg ?_).symm
    rintro ⟨rfl, -⟩
    exact hid hi

end Draft

/-- Adds what a row of `applicability` has for the specification with an id. -/
def addCondition (id : String) (r : Row) (s : Specification) : Specification :=
  { s with applicability := s.applicability ++ (conditionFor id r).toList }

/-- Adds what a row of `element_psets` has for the specification with an id. -/
def addRequirements (w : Workbook) (id : String) (r : Row) (s : Specification) : Specification :=
  { s with requirements := s.requirements ++ w.requirementsFor id r }

/-- **A row of `applicability`** adds a condition to the specification it names, or it is warned of.
-/
theorem adds_takeApplicability (d : Draft) (p : Row × Nat) :
    d.Adds (takeApplicability d p.2 p.1)
      (fun id s => addCondition id p.1 s)
      (conditionWarning? d.specifications.keys p).toList := by
  unfold takeApplicability conditionWarning? addCondition conditionFor
  generalize p.1.cell "spec_id" = id
  generalize p.1.cell "facet" = name
  cases FacetKind.ofName? name with
  | none =>
    have h := d.adds_change "applicability" p.2 id (some (.unknownFacet p.2 name)) (fun s => s)
      fun s => rfl
    exact h.congr fun i _ s => by simp
  | some kind =>
    have h := d.adds_change "applicability" p.2 id none
      (fun s => { s with
        applicability := s.applicability ++ [⟨conditionOf kind p.1, .required, none⟩] })
      fun s => rfl
    refine h.congr fun i _ s => ?_
    by_cases hi : id = i <;> simp [hi]

/-- The property in a row with both names. -/
def propertyIn (q : Row) : Property :=
  ⟨q.cell "pset_name", q.cell "property_name", q.cell? "data_type", restriction? (q.cell "value")⟩

/-- A row of `psets_lookup` is a property if both names are there. -/
theorem propertyOf?_eq (q : Row) : propertyOf? q =
    if q.cell "pset_name" ≠ "" ∧ q.cell "property_name" ≠ "" then some (propertyIn q)
    else none := by
  unfold propertyOf? propertyIn
  rw [Row.cell?, Row.cell?]
  simp only [String.isEmpty_iff]
  split <;> split <;> simp_all

/-- The name of the set in a requirement is that of the property. -/
theorem requirementOf_propertyIn {r q : Row} (h : q.cell "pset_name" = r.cell "pset_name") :
    requirementOf r (propertyIn q) = requirementBy r q := by
  unfold requirementOf requirementBy propertyIn
  dsimp only
  rw [h]

/-- The listed properties of a property set are those in the rows with both names. -/
theorem map_requirementOf (w : Workbook) (r : Row) :
    (w.properties.filter (·.set = r.cell "pset_name")).map (requirementOf r) =
      (w.lookupRows (r.cell "pset_name")).map (requirementBy r) := by
  unfold properties lookupRows
  induction w.rows "psets_lookup" with
  | nil => rfl
  | cons q rows ih =>
    rw [List.filterMap_cons, propertyOf?_eq, List.filter_cons]
    by_cases hnames : q.cell "pset_name" ≠ "" ∧ q.cell "property_name" ≠ ""
    · rw [if_pos hnames]
      dsimp only
      rw [List.filter_cons]
      have hset : (propertyIn q).set = q.cell "pset_name" := rfl
      by_cases h : q.cell "pset_name" = r.cell "pset_name"
      · rw [if_pos (by simpa [hset] using h), if_pos (by simpa using ⟨hnames.1, hnames.2, h⟩),
          List.map_cons, List.map_cons, ih, requirementOf_propertyIn h]
      · rw [if_neg (by simpa [hset] using h), if_neg (by simp [h]), ih]
    · rw [if_neg hnames, if_neg]
      · exact ih
      · rw [decide_eq_true_eq]
        exact fun h => hnames ⟨h.1, h.2.1⟩

/-- **A row of `element_psets`** adds requirements to the specification it names, or it is warned
of. -/
theorem adds_takeRequirement (w : Workbook) (d : Draft) (p : Row × Nat) :
    d.Adds (takeRequirement w.properties d p.2 p.1)
      (fun id s => w.addRequirements id p.1 s)
      (w.requirementWarning? d.specifications.keys p).toList := by
  have hfacets := map_requirementOf w p.1
  unfold takeRequirement requirementWarning? addRequirements requirementsFor
  generalize p.1.cell "spec_id" = id
  cases hps : w.properties.filter (·.set = p.1.cell "pset_name") with
  | nil =>
    rw [hps, List.map_nil, eq_comm, List.map_eq_nil_iff] at hfacets
    have h := d.adds_change "element_psets" p.2 id
      (some (.unknownPropertySet p.2 (p.1.cell "pset_name"))) (fun s => s) fun s => rfl
    rw [if_pos hfacets]
    exact h.congr fun i _ s => by simp [hfacets]
  | cons q ps =>
    rw [hps] at hfacets
    have hsome : w.lookupRows (p.1.cell "pset_name") ≠ [] := by
      intro hnil
      simp [hnil] at hfacets
    have h := d.adds_change "element_psets" p.2 id none
      (fun s => { s with requirements := s.requirements ++ (q :: ps).map (requirementOf p.1) })
      fun s => rfl
    rw [if_neg hsome, ← hfacets]
    refine h.congr fun i _ s => ?_
    by_cases hi : id = i <;> simp [hi]

/-! ### The whole workbook -/

/-- Conditions are added in the order of the rows. -/
theorem foldl_addCondition (id : String) (rows : List Row) (s : Specification) :
    rows.foldl (fun s r => addCondition id r s) s =
      { s with applicability := s.applicability ++ rows.filterMap (conditionFor id) } := by
  induction rows generalizing s with
  | nil => simp
  | cons r rows ih =>
    rw [List.foldl_cons, ih, List.filterMap_cons, addCondition]
    cases conditionFor id r <;> simp

/-- Requirements are added in the order of the rows. -/
theorem foldl_addRequirements (w : Workbook) (id : String) (rows : List Row)
    (s : Specification) :
    rows.foldl (fun s r => w.addRequirements id r s) s =
      { s with requirements := s.requirements ++ rows.flatMap (w.requirementsFor id) } := by
  induction rows generalizing s with
  | nil => simp
  | cons r rows ih =>
    rw [List.foldl_cons, ih, List.flatMap_cons, addRequirements]
    simp

/-- A row of `applicability` adds one facet, or it is warned of. -/
theorem settled_applicability (ids : List String) (p : Row × Nat) :
    Settled ids (p.1.cell "spec_id") (fun id => (conditionFor id p.1).toList)
      (conditionWarning? ids p) := by
  unfold conditionWarning? conditionFor
  by_cases hid : p.1.cell "spec_id" ∈ ids
  · rw [if_neg (not_not.2 hid)]
    cases FacetKind.ofName? (p.1.cell "facet") with
    | none => exact .warns _ fun id _ => by simp
    | some kind =>
      refine .adds hid (by simp) fun id _ hne => ?_
      simp [Ne.symm hne]
  · rw [if_pos hid]
    refine .warns _ fun id hmem => ?_
    rw [if_neg]
    · rfl
    · rintro rfl
      exact hid hmem

/-- A row of `element_psets` adds facets, or it is warned of. -/
theorem settled_requirements (w : Workbook) (ids : List String) (p : Row × Nat) :
    Settled ids (p.1.cell "spec_id") (fun id => w.requirementsFor id p.1)
      (w.requirementWarning? ids p) := by
  unfold requirementWarning? requirementsFor
  by_cases hid : p.1.cell "spec_id" ∈ ids
  · rw [if_neg (not_not.2 hid)]
    by_cases hnone : w.lookupRows (p.1.cell "pset_name") = []
    · rw [if_pos hnone]
      exact .warns _ fun id _ => by simp [hnone]
    · rw [if_neg hnone]
      refine .adds hid (by simpa using hnone) fun id _ hne => ?_
      rw [if_neg (Ne.symm hne)]
  · rw [if_pos hid]
    refine .warns _ fun id hmem => ?_
    rw [if_neg]
    rintro rfl
    exact hid hmem

/-- **Every row of the three sheets is joined into the draft.** -/
theorem joined_draft (w : Workbook) :
    Joined w ⟨infoOf w, w.draft.specifications.entries.map (·.2)⟩ w.draft.warnings := by
  have hdrafted : Drafted (w.numberedRows "specifications")
      (Draft.take takeSpecification {} (w.rows "specifications")) :=
    drafted_foldl _ (w.pairwise_numberedRows "specifications")
  unfold draft
  generalize Draft.take takeSpecification {} (w.rows "specifications") = first at hdrafted
  have hconditions := Draft.adds_take adds_takeApplicability first (w.rows "applicability")
  dsimp only
  generalize first.take takeApplicability (w.rows "applicability") = second at hconditions
  have hrequirements := Draft.adds_take w.adds_takeRequirement second (w.rows "element_psets")
  have hids : first.specifications.keys = w.ids := by
    simp only [Dictionary.keys, hdrafted.entries, List.map_map, Function.comp_def]
    rfl
  rw [hconditions.keys] at hrequirements
  have hadds := hconditions.trans hrequirements
  rw [hids] at hadds
  constructor
  case specifications =>
    rw [hadds.entries, hdrafted.entries, List.map_map, List.map_map]
    refine List.map_congr_left fun p _ => ?_
    simp only [Function.comp_apply]
    rw [foldl_addCondition, foldl_addRequirements]
    unfold joinedSpecification specificationOf
    simp only [List.nil_append]
  case nodup => exact hids ▸ first.specifications.nodup
  case complete =>
    intro p hp
    rw [← hids, hdrafted.mem_keys]
    exact ⟨p, hp, rfl⟩
  case warnings =>
    rw [hadds.warnings, hdrafted.warnings, List.append_assoc]
    rfl
  case applicability => exact fun p _ => settled_applicability w.ids p
  case requirements => exact fun p _ => w.settled_requirements w.ids p

/-- **The document of a workbook is the join of its sheets.** Where both required sheets are there,
the workbook has a document: its specifications are the first rows with their ids, with the facets
of all rows that name them and no others, and every row that adds nothing is warned of once. -/
theorem joined_of_document? (w : Workbook) (h : ∀ n ∈ requiredSheets, (w.sheet? n).isSome) :
    ∃ d warnings, w.document? = .ok (d, warnings) ∧ Joined w d warnings := by
  have hfind : requiredSheets.find? (fun n => (w.sheet? n).isNone) = none := by
    rw [List.find?_eq_none]
    intro n hn
    rw [← Option.not_isSome, h n hn]
    exact Bool.false_ne_true
  exact ⟨_, _, by rw [document?, hfind], w.joined_draft⟩

/-- A workbook with rows that are left out. -/
def wallsTwice : Workbook :=
  ((({} : Workbook).insert "info" []).insert "specifications"
      [[("spec_id", "W"), ("name", "Walls")], [("name", "Rest")], [("spec_id", "W")]]
    |>.insert "applicability"
      [[("spec_id", "W"), ("facet", "entity"), ("name", "IFCWALL")], [("spec_id", "3")]]
    |>.insert "psets_lookup" [[("pset_name", "P"), ("property_name", "Q")], [("pset_name", "P")]]
    |>.insert "element_psets" [[("spec_id", "2"), ("pset_name", "P"), ("value", "1..")]])

/-- A repeated row and a row for a specification that is not there are warned of. -/
theorem joined_wallsTwice : (∀ n ∈ requiredSheets, (wallsTwice.sheet? n).isSome) ∧
    (∃ d warnings, wallsTwice.document? = .ok (d, warnings) ∧ Joined wallsTwice d warnings) ∧
    wallsTwice.document?.toOption.map (·.2) = some
      [.duplicateSpecification 4 "W", .unknownSpecification "applicability" 3 "3"] :=
  ⟨by decide +kernel, joined_of_document? wallsTwice (by decide +kernel), by decide +kernel⟩

end BimAudit.Workbook
