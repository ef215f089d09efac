import BimAudit.Audit.Batch
import BimAudit.Proofs.Correspondences

/-!
# What the result of a specification says

The entities that a specification applies to are found by their positions, each of them is checked
against every requirement, and what was found is added up twice: for each entity, and for the
specification. Nothing is left out, said twice or moved on the way.

* `mem_applicablePositions`, `pairwise_applicablePositions`: the positions are those of the entities
  that the specification selects, each once and in order.
* `IsResultOf`: what the result of one entity says.
* `validate?_finds_selected`: **there is a result unless no entity is selected, and it holds the
  results of the selected entities in order, with counts and statuses that agree with them.**
-/

namespace BimAudit.Audit

open Ids (Specification)

variable {strict : Bool} {s : Specification} {e : Ifc.Entity} {es : List Ifc.Entity}

/-- All conditions of the applicability hold of the entity. -/
def Selects (s : Specification) (e : Ifc.Entity) : Prop :=
  ∀ f ∈ s.applicability, f.condition.holds e = true

theorem appliesTo_iff : appliesTo s e = true ↔ Selects s e := by
  unfold appliesTo Selects
  exact List.all_eq_true

/-! ### Positions -/

/-- **The positions are those of the entities that the specification selects.** -/
theorem mem_applicablePositions {i : Nat} :
    i ∈ applicablePositions s es ↔ ∃ e, es[i]? = some e ∧ Selects s e := by
  unfold applicablePositions
  constructor
  · intro hi
    obtain ⟨⟨e, j⟩, hmem, rfl⟩ := List.mem_map.1 hi
    obtain ⟨hz, happlies⟩ := List.mem_filter.1 hmem
    exact ⟨e, List.mk_mem_zipIdx_iff_getElem?.1 hz, appliesTo_iff.1 happlies⟩
  · rintro ⟨e, he, hselects⟩
    have hz : (e, i) ∈ es.zipIdx := List.mk_mem_zipIdx_iff_getElem?.2 he
    exact List.mem_map.2 ⟨(e, i), List.mem_filter.2 ⟨hz, appliesTo_iff.2 hselects⟩, rfl⟩

/-- Each of them comes once, and they are in order. -/
theorem pairwise_applicablePositions (s : Specification) (es : List Ifc.Entity) :
    (applicablePositions s es).Pairwise (· < ·) := by
  have hall : (es.zipIdx.map (·.2)).Pairwise (· < ·) := by
    rw [List.zipIdx_map_snd]
    exact List.pairwise_lt_range'
  unfold applicablePositions
  exact hall.sublist (List.filter_sublist.map _)

/-- The entities at these positions are the selected ones. -/
theorem filterMap_applicablePositions (s : Specification) (es : List Ifc.Entity) :
    (applicablePositions s es).filterMap (es[·]?) = es.filter (appliesTo s) := by
  have hget : ∀ x ∈ es.zipIdx.filter (fun x => appliesTo s x.1), es[x.2]? = some x.1 := by
    intro x hx
    exact List.mem_zipIdx_iff_getElem?.1 (List.mem_of_mem_filter hx)
  have hfst : (es.zipIdx.filter fun x => appliesTo s x.1).map (·.1) = es.filter (appliesTo s) := by
    have h := List.filter_map (p := appliesTo s) (f := Prod.fst) (l := es.zipIdx)
    rw [List.zipIdx_map_fst] at h
    exact h.symm
  unfold applicablePositions
  rw [List.filterMap_map, ← hfst, ← List.filterMap_eq_map]
  exact List.filterMap_congr hget

/-- Checking the entities at these positions is checking the selected entities. -/
theorem validateAt?_applicablePositions (strict : Bool) (es : List Ifc.Entity)
    (s : Specification) :
    validateAt? strict es (applicablePositions s es) s = validate? strict es s := by
  unfold validateAt? validate?
  simp only [List.getElem?_toArray]
  rw [filterMap_applicablePositions]

/-! ### Results -/

/-- What the result of an entity says: what was found for each requirement, in order, and whether
any of it is a failure. -/
structure IsResultOf (strict : Bool) (s : Specification) (e : Ifc.Entity) (x : EntityResult) :
    Prop where
  entityType : x.entityType = e.type
  name : x.name = e.name
  guid : x.guid = e.guid
  fileName : x.fileName = e.sourceFile
  specification : x.specification = s.name
  findings : x.findings = s.requirements.map (check strict e)
  status : x.status = .fail ↔ ∃ v ∈ x.findings, v.status = .fail

theorem Status.ofBool_eq_fail_iff {b : Bool} : Status.ofBool b = .fail ↔ b = false := by
  cases b <;> decide

theorem Status.ne_pass_iff {a : Status} : a ≠ .pass ↔ a = .fail := by
  cases a <;> decide

theorem isResultOf_entityResult (strict : Bool) (s : Specification) (e : Ifc.Entity) :
    IsResultOf strict s e (entityResult strict s e) := by
  refine ⟨rfl, rfl, rfl, rfl, rfl, rfl, ?_⟩
  unfold entityResult EntityResult.ofFindings
  simp only
  rw [Status.ofBool_eq_fail_iff, List.all_eq_false]
  simp only [decide_eq_true_eq, Status.ne_pass_iff]

/-- The results of the selected entities, position by position. -/
theorem forall₂_entityResult (strict : Bool) (s : Specification) (es : List Ifc.Entity) :
    List.Forall₂ (fun i x => ∃ e, es[i]? = some e ∧ IsResultOf strict s e x)
      (applicablePositions s es) ((es.filter (appliesTo s)).map (entityResult strict s)) := by
  have hsome : ∀ i ∈ applicablePositions s es, (es[i]?).isSome = true := by
    intro i hi
    obtain ⟨e, he, -⟩ := mem_applicablePositions.1 hi
    rw [he]
    rfl
  rw [← filterMap_applicablePositions, List.forall₂_map_right_iff]
  refine (forall₂_filterMap hsome).imp ?_
  intro i e he
  exact ⟨e, he, isResultOf_entityResult strict s e⟩

theorem ofEntities?_eq_none_iff {name : String} {rs : List EntityResult} :
    SpecificationResult.ofEntities? name rs = none ↔ rs = [] := by
  unfold SpecificationResult.ofEntities?
  cases rs <;> simp

theorem failures_le (rs : List EntityResult) : failures rs ≤ rs.length := by
  unfold failures
  exact List.length_filter_le _ _

/-- The counts and the status of a specification agree with the results of its entities. -/
theorem counts_of_ofEntities? {name : String} {rs : List EntityResult} {r : SpecificationResult}
    (h : SpecificationResult.ofEntities? name rs = some r) :
    r.specification = name ∧ r.entities = rs ∧ r.passCount + r.failCount = rs.length ∧
      r.failCount = rs.countP (·.status = .fail) ∧ (r.status = .fail ↔ 0 < r.failCount) := by
  have hle := failures_le rs
  unfold SpecificationResult.ofEntities? at h
  split at h
  · cases h
  · cases h
    refine ⟨rfl, rfl, ?_, ?_, ?_⟩
    · simp only
      omega
    · simp only
      unfold failures
      rw [List.countP_eq_length_filter]
    · simp only
      rw [Status.ofBool_eq_fail_iff, decide_eq_false_iff_not]
      omega

/-- **What a specification finds.** Checking a model by positions is checking the selected entities.
There is no result if and only if the specification selects no entity. Otherwise it has one entry
for each position of a selected entity, in order: what was found for each requirement, in the order
of the requirements, where the entity fails if and only if something of it is a failure. The entries
that pass and those that fail add up to all entries, and the specification fails if and only if some
entry does. -/
theorem validate?_finds_selected (strict : Bool) (es : List Ifc.Entity) (s : Specification) :
    validateAt? strict es (applicablePositions s es) s = validate? strict es s ∧
      (validate? strict es s = none ↔ ∀ e ∈ es, ¬Selects s e) ∧
      (applicablePositions s es).Pairwise (· < ·) ∧
      (∀ i, i ∈ applicablePositions s es ↔ ∃ e, es[i]? = some e ∧ Selects s e) ∧
      ∀ r, validate? strict es s = some r →
        r.specification = s.name ∧
        List.Forall₂ (fun i x => ∃ e, es[i]? = some e ∧ IsResultOf strict s e x)
          (applicablePositions s es) r.entities ∧
        r.passCount + r.failCount = r.entities.length ∧
        r.failCount = r.entities.countP (·.status = .fail) ∧
        (r.status = .fail ↔ 0 < r.failCount) := by
  refine ⟨validateAt?_applicablePositions strict es s, ?_, pairwise_applicablePositions s es,
    fun i => mem_applicablePositions, ?_⟩
  · unfold validate? resultFor?
    rw [ofEntities?_eq_none_iff, List.map_eq_nil_iff, List.filter_eq_nil_iff]
    simp only [appliesTo_iff]
  · intro r hr
    unfold validate? resultFor? at hr
    obtain ⟨hname, hentities, hcount, hfail, hstatus⟩ := counts_of_ofEntities? hr
    rw [hentities]
    exact ⟨hname, forall₂_entityResult strict s es, hcount, hfail, hstatus⟩

/-- Of two walls and a door the walls are selected, and one of them has the material that is asked
for. -/
theorem validate?_finds_selected_two_walls :
    let es : List Ifc.Entity := [
      { id := 1, guid := "G1", type := "IFCWALL", materials := ["Brick"], sourceFile := "a.ifc" },
      { id := 2, guid := "G2", type := "IFCDOOR", materials := ["Brick"], sourceFile := "a.ifc" },
      { id := 3, guid := "G3", type := "IFCWALL", sourceFile := "a.ifc" }]
    let s : Specification :=
      { name := "Walls", ifcVersion := "IFC4"
        applicability := [{ condition := .entity (.simple "IFCWALL") none }]
        requirements := [{ condition := .material (some (.simple "Brick")) none }] }
    ∃ r, validate? true es s = some r ∧ r.status = .fail ∧ r.passCount = 1 ∧ r.failCount = 1 ∧
      List.Forall₂ (fun i x => ∃ e, es[i]? = some e ∧ IsResultOf true s e x) [0, 2] r.entities := by
  intro es s
  have hfound : applicablePositions s es = [0, 2] ∧
      (validate? true es s).map (fun r => (r.status, r.passCount, r.failCount))
        = some (.fail, 1, 1) := by decide +revert +kernel
  obtain ⟨hpositions, hmap⟩ := hfound
  obtain ⟨r, hr, hcounts⟩ := Option.map_eq_some_iff.1 hmap
  simp only [Prod.mk.injEq] at hcounts
  obtain ⟨hstatus, hpass, hfail⟩ := hcounts
  obtain ⟨-, -, -, -, hresult⟩ := validate?_finds_selected true es s
  obtain ⟨-, hentities, -⟩ := hresult r hr
  rw [hpositions] at hentities
  exact ⟨r, hr, hstatus, hpass, hfail, hentities⟩

end BimAudit.Audit
