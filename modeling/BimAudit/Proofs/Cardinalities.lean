import BimAudit.Proofs.Lookups
import BimAudit.Proofs.SpecificationResults

/-!
# Conditions and requirements agree

A condition is used in two ways: it selects the entities that a specification applies to, and as a
requirement it is checked under a cardinality. The check of a requirement depends on nothing but two
facts, that the condition holds of the entity and that the entity lacks everything that the
condition speaks of, so both uses agree for every kind of condition that is inspected.

* `Lacks`: nothing that the condition speaks of is there.
* `Allows`: what a cardinality makes of the two facts.
* `exists_decidedBy`: conditions with names are decided by a lookup.
* `status_check_eq_pass_iff`: a check passes if and only if its cardinality allows it.
* `check_agrees_with_holds`: **a condition that has to hold passes where it holds, one that must not
  hold where it does not, and one that may be left open also where everything is lacking.**
-/

namespace BimAudit.Audit

open Ids (Value Cardinality Condition Facet)

variable {strict : Bool} {e : Ifc.Entity} {c : Condition} {f : Facet} {card : Cardinality}
  {l : Lookup}

/-! ### Kinds of conditions -/

/-- The condition is about properties or attributes, which are looked up by their names. -/
def IsNamed : Condition → Prop
  | .property .. | .attribute .. => True
  | _ => False

/-- The condition is about classifications, materials or wholes. -/
def IsRelated : Condition → Prop
  | .classification .. | .material .. | .partOf .. => True
  | _ => False

theorem IsNamed.cases (h : IsNamed c) :
    (∃ set name value dataType uri, c = .property set name value dataType uri) ∨
      ∃ name value, c = .attribute name value := by
  cases c with
  | property set name value dataType uri => exact .inl ⟨set, name, value, dataType, uri, rfl⟩
  | «attribute» name value => exact .inr ⟨name, value, rfl⟩
  | entity name predefinedType => cases h
  | classification system value uri => cases h
  | material value uri => cases h
  | partOf whole relation => cases h

theorem IsRelated.cases (h : IsRelated c) :
    (∃ system value uri, c = .classification system value uri) ∨
      (∃ value uri, c = .material value uri) ∨ ∃ whole relation, c = .partOf whole relation := by
  cases c with
  | classification system value uri => exact .inl ⟨system, value, uri, rfl⟩
  | material value uri => exact .inr (.inl ⟨value, uri, rfl⟩)
  | partOf whole relation => exact .inr (.inr ⟨whole, relation, rfl⟩)
  | entity name predefinedType => cases h
  | property set name value dataType uri => cases h
  | «attribute» name value => cases h

/-- Requirements of this kind are inspected: all names are given, or the check is strict. -/
def Inspected (strict : Bool) (c : Condition) : Prop :=
  IsNamed c ∧ c.isIncomplete = false ∨ IsRelated c ∧ strict = true

/-- The entity has nothing that the condition speaks of: no property and no attribute that is not
empty under the names that are selected, no classification, no material or no parent at all. -/
def Lacks (e : Ifc.Entity) : Condition → Prop
  | .property set name .. => ¬∃ k actual, HasProperty e set name k actual
  | .attribute name _ => ¬∃ k actual, HasAttribute e name k actual
  | .classification .. => e.classifications = []
  | .material .. => e.materials = []
  | .partOf .. => e.parents = []
  | .entity .. => False

/-- What a cardinality makes of the facts that a condition holds and that all is lacking. -/
def Allows (card : Cardinality) (holds lacks : Prop) : Prop :=
  match card with
  | .required => holds
  | .optional => holds ∨ lacks
  | .prohibited => ¬holds

/-! ### Conditions with names -/

/-- The condition is decided by what a lookup finds, and so is every check of it. -/
structure DecidedBy (e : Ifc.Entity) (c : Condition) (l : Lookup) : Prop where
  holds : c.holds e = true ↔ ∃ d, l = .found d
  lacks : Lacks e c ↔ ∃ d, l = .absent d
  check : ∀ strict card instructions, ∃ kind message,
    check strict e ⟨c, card, instructions⟩ = judge kind message card l

theorem isFound_iff : Condition.isFound l = true ↔ ∃ d, l = .found d := by
  cases l <;> simp [Condition.isFound]

/-- **A condition with all its names is decided by one lookup.** -/
theorem exists_decidedBy (e : Ifc.Entity) (hnamed : IsNamed c)
    (hcomplete : c.isIncomplete = false) : ∃ l, DecidedBy e c l := by
  obtain ⟨set, name, value, dataType, uri, rfl⟩ | ⟨name, value, rfl⟩ := hnamed.cases
  · refine ⟨lookupProperty e set name value, ?_, ?_, ?_⟩
    · unfold Condition.holds
      rw [hcomplete, Bool.not_false, Bool.true_and]
      exact isFound_iff
    · exact (answers_lookupProperty e set name value).absent.symm
    · intro strict card instructions
      unfold Audit.check
      simp only [hcomplete, Bool.false_eq_true, if_false]
      exact ⟨_, _, rfl⟩
  · refine ⟨lookupAttribute e name value, ?_, ?_, ?_⟩
    · unfold Condition.holds
      rw [hcomplete, Bool.not_false, Bool.true_and]
      exact isFound_iff
    · exact (answers_lookupAttribute e name value).absent.symm
    · intro strict card instructions
      unfold Audit.check
      simp only [hcomplete, Bool.false_eq_true, if_false]
      exact ⟨_, _, rfl⟩

/-- A lookup is judged by whether something is found and whether anything is there. -/
theorem status_judge_eq_pass_iff (kind : Ids.FacetKind) (message : String) (card : Cardinality)
    (l : Lookup) : (judge kind message card l).status = .pass ↔
      Allows card (∃ d, l = .found d) (∃ d, l = .absent d) := by
  cases card <;> cases l <;> simp [judge, finding, Status.ofBool, Allows]

/-! ### Conditions on related things -/

/-- Nothing is there to compare if the entity lacks what the condition is about. -/
theorem relatedTexts_eq_nil_iff (h : IsRelated c) : relatedTexts e c = [] ↔ Lacks e c := by
  obtain ⟨system, value, uri, rfl⟩ | ⟨value, uri, rfl⟩ | ⟨whole, relation, rfl⟩ := h.cases
  · simp [relatedTexts, Lacks]
  · simp [relatedTexts, Lacks]
  · simp [relatedTexts, Lacks]

/-- Nothing is related in the way that is asked for where nothing of the kind is there. -/
theorem not_holds_of_isRelated (h : IsRelated c) (hlacks : Lacks e c) : ¬c.holds e = true := by
  obtain ⟨system, value, uri, rfl⟩ | ⟨value, uri, rfl⟩ | ⟨whole, relation, rfl⟩ := h.cases
  · have hnone : e.classifications = [] := hlacks
    simp [Condition.holds, hnone]
  · have hnone : e.materials = [] := hlacks
    cases value <;> simp [Condition.holds, hnone]
  · have hnone : e.parents = [] := hlacks
    simp [Condition.holds, hnone]

theorem check_of_isRelated (h : IsRelated f.condition) :
    check true e f = checkRelated e f.condition f.cardinality := by
  obtain ⟨c, card, instructions⟩ := f
  obtain ⟨system, value, uri, rfl⟩ | ⟨value, uri, rfl⟩ | ⟨whole, relation, rfl⟩ := h.cases
  · rfl
  · rfl
  · rfl

/-- **The check of related texts passes** where the cardinality allows what is there. -/
theorem status_checkRelated_eq_pass_iff (e : Ifc.Entity) (c : Condition) (card : Cardinality) :
    (checkRelated e c card).status = .pass ↔
      Allows card (c.holds e = true) (relatedTexts e c = []) := by
  unfold checkRelated
  cases card with
  | required => by_cases h : c.holds e = true <;> simp [h, finding, Status.ofBool, Allows]
  | optional =>
    by_cases h : c.holds e = true
    · simp [h, finding, Status.ofBool, Allows]
    · by_cases hempty : relatedTexts e c = [] <;>
        simp [h, hempty, finding, Status.ofBool, Allows]
  | prohibited => by_cases h : c.holds e = true <;> simp [h, finding, Status.ofBool, Allows]

/-! ### Checks -/

/-- **A requirement that is inspected passes if and only if its cardinality allows it.** -/
theorem status_check_eq_pass_iff (h : Inspected strict f.condition) :
    (check strict e f).status = .pass ↔
      Allows f.cardinality (f.condition.holds e = true) (Lacks e f.condition) := by
  obtain ⟨hnamed, hcomplete⟩ | ⟨hrelated, hstrict⟩ := h
  · obtain ⟨l, hl⟩ := exists_decidedBy e hnamed hcomplete
    obtain ⟨kind, message, hcheck⟩ := hl.check strict f.cardinality f.instructions
    rw [hcheck, status_judge_eq_pass_iff, hl.holds, hl.lacks]
  · rw [hstrict, check_of_isRelated hrelated, status_checkRelated_eq_pass_iff,
      relatedTexts_eq_nil_iff hrelated]

/-- A condition does not hold where all that it speaks of is lacking. -/
theorem not_holds_of_lacks (h : Inspected strict c) (hlacks : Lacks e c) : ¬c.holds e = true := by
  obtain ⟨hnamed, hcomplete⟩ | ⟨hrelated, -⟩ := h
  · obtain ⟨l, hl⟩ := exists_decidedBy e hnamed hcomplete
    obtain ⟨d, hd⟩ := hl.lacks.1 hlacks
    rw [hl.holds, hd]
    rintro ⟨d', hfound⟩
    cases hfound
  · exact not_holds_of_isRelated hrelated hlacks

/-- A requirement that does not say which property or attribute it is about fails whatever its
cardinality. -/
theorem status_check_of_isIncomplete (hnamed : IsNamed f.condition)
    (hincomplete : f.condition.isIncomplete = true) : (check strict e f).status = .fail := by
  obtain ⟨c, card, instructions⟩ := f
  simp only at hnamed hincomplete
  obtain ⟨set, name, value, dataType, uri, rfl⟩ | ⟨name, value, rfl⟩ := hnamed.cases
  · unfold check
    simp only [hincomplete, if_true]
    rfl
  · unfold check
    simp only [hincomplete, if_true]
    rfl

/-- **Conditions and requirements agree.** For a requirement that is inspected, the check passes if
the condition has to hold and does, and if it must not hold and the check that it has to hold fails.
A check that passes where the condition has to hold passes where it may be left open too, and it
passes there alone if and only if the entity lacks everything that the condition speaks of. A
requirement without the name of a property or attribute holds of nothing and fails under every
cardinality. -/
theorem check_agrees_with_holds (strict : Bool) (e : Ifc.Entity) (f : Facet) :
    let result (card : Cardinality) : Status := (check strict e (f.withCardinality card)).status
    (Inspected strict f.condition →
      (result .required = .pass ↔ f.condition.holds e = true) ∧
      (result .prohibited = .pass ↔ result .required = .fail) ∧
      (result .required = .pass → result .optional = .pass) ∧
      (result .optional = .pass ∧ result .required = .fail ↔ Lacks e f.condition)) ∧
    (IsNamed f.condition → f.condition.isIncomplete = true →
      f.condition.holds e = false ∧ ∀ card, result card = .fail) := by
  intro result
  constructor
  · intro hinspected
    have hresult : ∀ card, result card = .pass ↔
        Allows card (f.condition.holds e = true) (Lacks e f.condition) :=
      fun card => status_check_eq_pass_iff (f := f.withCardinality card) hinspected
    have hrequired : result .required = .pass ↔ f.condition.holds e = true := hresult .required
    have hfail : result .required = .fail ↔ ¬f.condition.holds e = true := by
      rw [← hrequired]
      exact Status.ne_pass_iff.symm
    have hoptional : result .optional = .pass ↔
        f.condition.holds e = true ∨ Lacks e f.condition := hresult .optional
    refine ⟨hrequired, ?_, ?_, ?_⟩
    · rw [hfail]
      exact hresult .prohibited
    · intro hpass
      exact hoptional.2 (.inl (hrequired.1 hpass))
    · rw [hoptional, hfail]
      constructor
      · rintro ⟨hholds | hlacks, hnot⟩
        · exact absurd hholds hnot
        · exact hlacks
      · intro hlacks
        exact ⟨.inr hlacks, not_holds_of_lacks hinspected hlacks⟩
  · intro hnamed hincomplete
    refine ⟨?_, fun card => status_check_of_isIncomplete hnamed hincomplete⟩
    unfold Condition.holds
    rw [hincomplete, Bool.not_true, Bool.false_and]

/-- A strict check for a material that the wall does not have, and a requirement that names no
attribute. -/
theorem check_agrees_with_holds_ratedWall :
    let material : Facet := ⟨.material (some (.simple "Brick")) none, .required, none⟩
    let nameless : Facet := ⟨.attribute (.simple " ") none, .required, none⟩
    Inspected true material.condition ∧ IsNamed nameless.condition ∧
      nameless.condition.isIncomplete = true ∧
      (check true ratedWall (material.withCardinality .required)).status = .fail ∧
      (check true ratedWall (material.withCardinality .optional)).status = .pass ∧
      (check true ratedWall (material.withCardinality .prohibited)).status = .pass ∧
      ∀ card, (check true ratedWall (nameless.withCardinality card)).status = .fail := by
  intro material nameless
  have hinspected : Inspected true material.condition := .inr ⟨trivial, rfl⟩
  have hincomplete : nameless.condition.isIncomplete = true := by decide +kernel
  obtain ⟨-, hprohibited, -, hlacks⟩ :=
    (check_agrees_with_holds true ratedWall material).1 hinspected
  obtain ⟨-, hfail⟩ := (check_agrees_with_holds true ratedWall nameless).2 trivial hincomplete
  obtain ⟨hoptional, hrequired⟩ := hlacks.2 rfl
  exact ⟨hinspected, trivial, hincomplete, hrequired, hoptional, hprohibited.2 hrequired, hfail⟩

end BimAudit.Audit
