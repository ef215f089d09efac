import BimAudit.Browser.Key

/-!
# Selections stay in their lists

Every list of a browser depends on the selections to its left: the specifications on the selected
pair, the entities on the selected specification and on the filter. A key that changes one of these
has to begin the selections behind it anew, and the findings can be open only as long as there is an
entity to show them for.

* `Browser.Selected`: what holds of the selections at any time.
* `Browser.selected_press`: a key keeps it. `Browser.selected_pressAll`: **whatever keys are
  pressed, every selection is a place of its list.**
-/

namespace BimAudit.Browser

open Audit

/-- The place is one of a list with so many items, or zero if there are none. -/
def IsPlace (count place : Nat) : Prop := place < count ∨ count = 0 ∧ place = 0

/-- Every selection is a place of its list, and what is shown of the report can be shown. -/
structure Selected (r : Report) (b : Browser) : Prop where
  report : b.report = r
  pair : IsPlace r.pairs.length b.pair
  specification : IsPlace b.specifications.length b.specification
  entity : IsPlace b.entities.length b.entity
  /-- Open findings are those of an entity, and not all of them are scrolled away. -/
  detail : b.view = .detail →
    ∃ e, b.selectedEntity? = some e ∧ (b.scroll = 0 ∨ b.scroll < e.findings.length)
  dashboard : b.view = .dashboard → b.scroll = 0

/-! ### Places -/

section Places

variable {count place : Nat}

theorem isPlace_zero (count : Nat) : IsPlace count 0 := by
  unfold IsPlace
  omega

/-- One place back is a place again, since there is none in front of the first. -/
theorem IsPlace.back (h : IsPlace count place) : IsPlace count (place - 1) := by
  unfold IsPlace at h ⊢
  omega

/-- One place on is a place again, since there is none behind the last. -/
theorem IsPlace.advance (h : IsPlace count place) : IsPlace count (advance count place) := by
  unfold Browser.advance
  split
  case isTrue hlt => exact .inl hlt
  case isFalse => exact h

theorem cycle_lt (h : place < count) : cycle count place < count := by
  unfold cycle
  exact Nat.mod_lt _ (by omega)

theorem cycleBack_lt (h : place < count) : cycleBack count place < count := by
  unfold cycleBack
  split <;> omega

end Places

/-! ### The two views -/

variable {r : Report} {b : Browser}

/-- On the dashboard nothing is asked of findings. -/
theorem selected_of_dashboard (hreport : b.report = r) (hview : b.view = .dashboard)
    (hscroll : b.scroll = 0) (hpair : IsPlace r.pairs.length b.pair)
    (hspecification : IsPlace b.specifications.length b.specification)
    (hentity : IsPlace b.entities.length b.entity) : b.Selected r where
  report := hreport
  pair := hpair
  specification := hspecification
  entity := hentity
  detail := by
    intro h
    rw [hview] at h
    cases h
  dashboard := fun _ => hscroll

/-- Findings are those of the selected entity, and not all of them are scrolled away. -/
theorem selected_of_detail (hreport : b.report = r) (hview : b.view = .detail)
    {e : EntityResult} (he : b.selectedEntity? = some e)
    (hscroll : b.scroll = 0 ∨ b.scroll < e.findings.length)
    (hpair : IsPlace r.pairs.length b.pair)
    (hspecification : IsPlace b.specifications.length b.specification) : b.Selected r where
  report := hreport
  pair := hpair
  specification := hspecification
  entity := .inl (List.getElem?_eq_some_iff.1 he).1
  detail := fun _ => ⟨e, he, hscroll⟩
  dashboard := by
    intro h
    rw [hview] at h
    cases h

/-- At the start the first item of every list is selected. -/
theorem selected_start (r : Report) : Selected r { report := r } :=
  selected_of_dashboard rfl rfl rfl (isPlace_zero _) (isPlace_zero _) (isPlace_zero _)

/-! ### Keys on the dashboard -/

/-- With another pair, the first of its specifications and of its entities are selected. -/
theorem Selected.selectPair (h : b.Selected r) (hview : b.view = .dashboard) {place : Nat}
    (hplace : IsPlace r.pairs.length place) : (b.selectPair place).Selected r := by
  unfold Browser.selectPair
  split
  case isTrue => exact h
  case isFalse =>
    -- the lists behind are those of another pair
    exact selected_of_dashboard h.report hview (h.dashboard hview) hplace (isPlace_zero _)
      (isPlace_zero _)

/-- With another specification, the first of its entities is selected. -/
theorem Selected.selectSpecification (h : b.Selected r) (hview : b.view = .dashboard)
    {place : Nat} (hplace : IsPlace b.specifications.length place) :
    (b.selectSpecification place).Selected r := by
  unfold Browser.selectSpecification
  split
  case isTrue => exact h
  case isFalse =>
    exact selected_of_dashboard h.report hview (h.dashboard hview) h.pair hplace (isPlace_zero _)

theorem Selected.selectEntity (h : b.Selected r) (hview : b.view = .dashboard) {place : Nat}
    (hplace : IsPlace b.entities.length place) : Selected r { b with entity := place } :=
  selected_of_dashboard h.report hview (h.dashboard hview) h.pair h.specification hplace

/-- A step up stays among the items of the panel. -/
theorem Selected.moveUp (h : b.Selected r) (hview : b.view = .dashboard) :
    b.moveUp.Selected r := by
  unfold Browser.moveUp
  split
  · exact h.selectPair hview h.pair.back
  · exact h.selectSpecification hview h.specification.back
  · exact h.selectEntity hview h.entity.back

/-- A step down stays among the items of the panel. -/
theorem Selected.moveDown (h : b.Selected r) (hview : b.view = .dashboard) :
    b.moveDown.Selected r := by
  unfold Browser.moveDown
  split
  · rw [h.report]
    exact h.selectPair hview h.pair.advance
  · exact h.selectSpecification hview h.specification.advance
  · exact h.selectEntity hview h.entity.advance

/-- When other entities are shown, the first one of them is selected. -/
theorem Selected.toggleFailures (h : b.Selected r) (hview : b.view = .dashboard) :
    b.toggleFailures.Selected r :=
  selected_of_dashboard h.report hview (h.dashboard hview) h.pair h.specification (isPlace_zero _)

/-- The detail view is opened only for an entity. -/
theorem Selected.openDetail (h : b.Selected r) : b.openDetail.Selected r := by
  unfold Browser.openDetail
  split
  case isTrue hopen =>
    obtain ⟨e, he⟩ := Option.isSome_iff_exists.1 hopen.2
    exact selected_of_detail h.report rfl he (.inl rfl) h.pair h.specification
  case isFalse => exact h

/-- Neither a move of the focus nor leaving the browser touches a selection. -/
theorem Selected.refocus (h : b.Selected r) (panel : Panel) (closed : Bool) :
    Selected r { b with panel, closed } :=
  ⟨h.report, h.pair, h.specification, h.entity, h.detail, h.dashboard⟩

/-- Each key on the dashboard keeps the selections in place. -/
theorem Selected.pressOnDashboard (h : b.Selected r) (hview : b.view = .dashboard) (k : Key) :
    (b.pressOnDashboard k).Selected r := by
  unfold Browser.pressOnDashboard
  -- the keys come in the order of the definition, each arrow with its letter
  split
  case h_1 | h_2 => exact h.refocus _ _
  case h_3 | h_4 => exact h.moveUp hview
  case h_5 | h_6 => exact h.moveDown hview
  case h_7 | h_8 | h_9 | h_10 => exact h.refocus _ _
  case h_11 => exact h.toggleFailures hview
  case h_12 => exact h.openDetail
  case h_13 => exact h

/-! ### Keys on the findings of an entity -/

/-- The findings may be scrolled to any place among them. -/
theorem Selected.scrollTo (h : b.Selected r) (hview : b.view = .detail) {place : Nat}
    (hplace : b.scroll = 0 ∨ b.scroll < b.findings.length →
      place = 0 ∨ place < b.findings.length) : Selected r { b with scroll := place } := by
  obtain ⟨e, he, hscroll⟩ := h.detail hview
  have hfindings : b.findings = e.findings := by
    unfold findings
    rw [he]
    rfl
  rw [hfindings] at hplace
  exact selected_of_detail h.report hview he (hplace hscroll) h.pair h.specification

/-- To turn to another entity is to select one of the same list, whichever way it is turned. -/
theorem Selected.turn (h : b.Selected r) (hview : b.view = .detail) {next : Nat → Nat → Nat}
    (hnext : ∀ count place, place < count → next count place < count) :
    (b.turn next).Selected r := by
  unfold Browser.turn
  split
  case isTrue => exact h
  case isFalse =>
    obtain ⟨e, he, -⟩ := h.detail hview
    have hlt : b.entity < b.entities.length := (List.getElem?_eq_some_iff.1 he).1
    have hnew := List.getElem?_eq_getElem (hnext _ _ hlt)
    exact selected_of_detail h.report hview hnew (.inl rfl) h.pair h.specification

/-- Back on the dashboard the selections are what they were. -/
theorem Selected.closeDetail (h : b.Selected r) :
    Selected r { b with view := .dashboard, scroll := 0 } :=
  selected_of_dashboard h.report rfl rfl h.pair h.specification h.entity

/-- Each key on the findings keeps the selections in place. -/
theorem Selected.pressOnDetail (h : b.Selected r) (hview : b.view = .detail) (k : Key) :
    (b.pressOnDetail k).Selected r := by
  unfold Browser.pressOnDetail
  split
  case h_1 => exact h.refocus _ _
  case h_2 | h_3 => exact h.closeDetail
  case h_4 | h_5 =>
    refine h.scrollTo hview fun hscroll => ?_
    omega
  case h_6 | h_7 =>
    refine h.scrollTo hview fun hscroll => ?_
    unfold Browser.advance
    split <;> omega
  case h_8 | h_9 => exact h.turn hview fun _ _ => cycleBack_lt
  case h_10 | h_11 => exact h.turn hview fun _ _ => cycle_lt
  case h_12 => exact h

/-! ### All keys -/

/-- **A key keeps every selection in its list.** -/
theorem selected_press (h : b.Selected r) (k : Key) : (b.press k).Selected r := by
  unfold press
  cases hview : b.view with
  | dashboard => exact h.pressOnDashboard hview k
  | detail => exact h.pressOnDetail hview k

/-- **Whatever keys are pressed, every selection is a place of its list**, and findings are shown
only of an entity that is there. -/
theorem selected_pressAll (r : Report) (ks : List Key) :
    (pressAll { report := r } ks).Selected r := by
  have hrun : ∀ b : Browser, b.Selected r → (b.pressAll ks).Selected r := by
    unfold pressAll
    induction ks with
    | nil => exact fun b h => h
    | cons k ks ih => exact fun b h => ih (b.press k) (selected_press h k)
  exact hrun _ (selected_start r)

end BimAudit.Browser
