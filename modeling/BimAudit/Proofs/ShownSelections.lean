import BimAudit.Browser.Picture
import BimAudit.Proofs.Selections

/-!
# What is selected and what is drawn

A panel draws as many items of its list as there is room for. The two tables begin at an item from
which the selected one is in sight; the list of pairs always begins at the first pair, wherever the
selection is.

* `drawnRows`, `drawnItems`: what a table and a list draw of what they are given. `table_drawnRows`,
  `list_drawnItems`: the rest does not matter to them.
* `mem_window_iff`: what a window shows. `selected_mem_window`: a window that moves along with the
  selection shows it.
* `selections_drawn`: **whatever keys are pressed, the selected specification and the selected
  entity are drawn**, and the selected pair is if and only if it is one of the first that fit in its
  panel.
-/

namespace BimAudit.Browser

open Audit Screen

/-! ### What fits in a panel -/

section Panels

variable {α : Type} (a : Area)

/-- The rows of a table that are drawn in a panel: those that have room below the titles. -/
def drawnRows (rows : List α) : List α := rows.take (a.inner.height - 1)

/-- The items of a list that are drawn in a panel: those for which there is room for both lines. -/
def drawnItems (items : List α) : List α := items.take (a.inner.height / 2)

theorem table_drawnRows (c : Canvas) (extents : List Extent) (header : Canvas.TableRow)
    (rows : List Canvas.TableRow) :
    c.table a.inner extents header (drawnRows a rows) = c.table a.inner extents header rows := by
  unfold Canvas.table drawnRows
  cases a.inner.height with
  | zero => rfl
  | succ n => rw [List.take_succ_cons, List.take_succ_cons, Nat.add_sub_cancel, List.take_take,
      Nat.min_self]

theorem list_drawnItems (c : Canvas) (items : List (List Span × List Span)) :
    c.list a.inner (drawnItems a items) = c.list a.inner items := by
  unfold Canvas.list drawnItems
  rw [List.take_take, Nat.min_self]

variable {a}

/-- A window of a table has no more rows than are drawn. -/
theorem drawnRows_window (first : Nat) (xs : List α) :
    drawnRows a (window first (tableRoom a.height) xs) = window first (tableRoom a.height) xs := by
  unfold drawnRows window
  rw [List.take_take]
  congr 1
  show min (a.height - 2 - 1) (a.height - 3) = a.height - 3
  omega

/-- A window of a list has no more items than are drawn. -/
theorem drawnItems_window (first : Nat) (xs : List α) :
    drawnItems a (window first (listRoom a.height) xs) = window first (listRoom a.height) xs := by
  unfold drawnItems window
  rw [List.take_take]
  congr 1
  exact Nat.min_self _

end Panels

/-! ### Windows -/

section Windows

variable {α : Type} {xs : List α} {x : α} {first room place : Nat}

/-- A window shows the items from its first place on for which there is room. -/
theorem mem_window_iff :
    (x, place) ∈ window first room xs ↔
      xs[place]? = some x ∧ first ≤ place ∧ place < first + room := by
  have hplace : ∀ j, (xs.zipIdx.drop first)[j]? = xs[first + j]?.map fun y => (y, first + j) := by
    intro j
    rw [List.getElem?_drop, List.getElem?_zipIdx, Nat.zero_add]
  unfold window
  rw [List.mem_iff_getElem?]
  constructor
  · rintro ⟨j, hget⟩
    rw [List.getElem?_take] at hget
    split at hget
    · rw [hplace] at hget
      obtain ⟨y, hy, heq⟩ := Option.map_eq_some_iff.1 hget
      cases heq
      exact ⟨hy, Nat.le_add_right _ _, by omega⟩
    · cases hget
  · rintro ⟨hx, hle, hlt⟩
    refine ⟨place - first, ?_⟩
    rw [List.getElem?_take, if_pos (by omega), hplace, Nat.add_sub_cancel' hle, hx]
    rfl

/-- A window that moves along with the selection shows what is selected, if it shows anything. -/
theorem selected_mem_window (hroom : 0 < room) (hx : xs[place]? = some x) :
    (x, place) ∈ window (firstShown place room) room xs := by
  rw [mem_window_iff]
  refine ⟨hx, ?_⟩
  unfold firstShown
  split <;> omega

end Windows

/-! ### Selections -/

variable {r : Report} {b : Browser}

theorem Selected.pressAll (h : b.Selected r) (ks : List Key) : (b.pressAll ks).Selected r := by
  unfold Browser.pressAll
  induction ks generalizing b with
  | nil => exact h
  | cons k ks ih => exact ih (selected_press h k)

/-- The place of a selection holds an item, unless there are none. -/
theorem getElem?_of_isPlace {α : Type} {xs : List α} {place : Nat} (h : IsPlace xs.length place)
    (hne : xs ≠ []) : ∃ x, xs[place]? = some x := by
  have hpos := List.length_pos_iff.2 hne
  have hlt : place < xs.length := by
    unfold IsPlace at h
    omega
  exact ⟨xs[place], List.getElem?_eq_getElem hlt⟩

/-- The focus is on the pairs of the report, of which one is selected. -/
structure OnPair (r : Report) (k : Nat) (b : Browser) : Prop where
  report : b.report = r
  view : b.view = .dashboard
  panel : b.panel = .files
  pair : b.pair = k

theorem OnPair.down {k : Nat} (h : b.OnPair r k) (hk : k + 1 < r.pairs.length) :
    (b.press .down).OnPair r (k + 1) := by
  have hnext : Browser.advance b.report.pairs.length b.pair = k + 1 := by
    unfold Browser.advance
    rw [h.report, h.pair, if_pos hk]
  have hne : ¬ k + 1 = b.pair := by
    rw [h.pair]
    exact Nat.succ_ne_self k
  have hpress : b.press .down = { b with pair := k + 1, specification := 0, entity := 0 } := by
    unfold press pressOnDashboard moveDown selectPair
    rw [h.view, h.panel]
    simp only [hnext, if_neg hne]
  rw [hpress]
  exact ⟨h.report, h.view, h.panel, rfl⟩

/-- Every pair can be selected. -/
theorem exists_onPair {k : Nat} (hk : k < r.pairs.length) :
    ∃ ks, (Browser.pressAll { report := r } ks).OnPair r k := by
  induction k with
  | zero => exact ⟨[.left], rfl, rfl, rfl, rfl⟩
  | succ k ih =>
    obtain ⟨ks, hks⟩ := ih (Nat.lt_of_succ_lt hk)
    refine ⟨ks ++ [.down], ?_⟩
    unfold Browser.pressAll at hks ⊢
    rw [List.foldl_append]
    exact hks.down hk

/-- In a table with room for a row the row of a selection is drawn. -/
theorem exists_drawn {α : Type} {xs : List α} {place : Nat} {a : Area} (ha : 4 ≤ a.height)
    (h : IsPlace xs.length place) (hne : xs ≠ []) : ∃ x, xs[place]? = some x ∧
      (x, place) ∈ drawnRows a
        (window (firstShown place (tableRoom a.height)) (tableRoom a.height) xs) := by
  obtain ⟨x, hx⟩ := getElem?_of_isPlace h hne
  refine ⟨x, hx, ?_⟩
  rw [drawnRows_window]
  exact selected_mem_window (Nat.sub_pos_of_lt ha) hx

/-- Whether the selected pair is drawn depends on its place alone. -/
theorem pair_mem_drawnItems_iff {p : Pair} (a : Area) (hp : b.selectedPair? = some p) :
    (p, b.pair) ∈ drawnItems a (b.shownPairs a.height) ↔ b.pair < listRoom a.height := by
  unfold shownPairs
  rw [drawnItems_window, mem_window_iff, Nat.zero_add, and_iff_right (Nat.zero_le _)]
  exact and_iff_right hp

/-- **What is drawn of the selections.** In a panel with room for an item, whatever keys were
pressed, the selected specification and the selected entity are among the rows that are drawn,
unless there are none to select. The selected pair is drawn if and only if it is one of the first
that fit in the panel; so it is drawn at all times if and only if all pairs of the report fit. -/
theorem selections_drawn (r : Report) (a : Area) (ha : 4 ≤ a.height) :
    (∀ ks : List Key, let b := pressAll { report := r } ks
      (b.specifications ≠ [] → ∃ s, b.selectedSpecification? = some s ∧
        (s, b.specification) ∈ drawnRows a (b.shownSpecifications a.height)) ∧
      (b.entities ≠ [] → ∃ e, b.selectedEntity? = some e ∧
        (e, b.entity) ∈ drawnRows a (b.shownEntities a.height)) ∧
      (r.pairs ≠ [] → ∃ p, b.selectedPair? = some p ∧
        ((p, b.pair) ∈ drawnItems a (b.shownPairs a.height) ↔ b.pair < listRoom a.height))) ∧
    ((∀ ks : List Key, let b := pressAll { report := r } ks
      ∀ p, b.selectedPair? = some p → (p, b.pair) ∈ drawnItems a (b.shownPairs a.height)) ↔
      r.pairs.length ≤ listRoom a.height) := by
  have hselected : ∀ ks : List Key, (pressAll { report := r } ks).Selected r :=
    (selected_start r).pressAll
  refine ⟨fun ks => ⟨?_, ?_, ?_⟩, ?_, ?_⟩
  · exact exists_drawn ha (hselected ks).specification
  · exact exists_drawn ha (hselected ks).entity
  · intro hne
    obtain ⟨p, hp⟩ := getElem?_of_isPlace (hselected ks).pair hne
    have hsome : (pressAll { report := r } ks).selectedPair? = some p := by
      unfold selectedPair?
      rw [(hselected ks).report]
      exact hp
    exact ⟨p, hsome, pair_mem_drawnItems_iff a hsome⟩
  · intro hdrawn
    refine Nat.le_of_not_lt fun hk => ?_
    -- the first pair for which there is no room can be selected
    obtain ⟨ks, hks⟩ := exists_onPair hk
    have hsome : (pressAll { report := r } ks).selectedPair? = some r.pairs[listRoom a.height] := by
      unfold selectedPair?
      rw [hks.report, hks.pair]
      exact List.getElem?_eq_getElem hk
    have hlt := (pair_mem_drawnItems_iff a hsome).1 (hdrawn ks _ hsome)
    rw [hks.pair] at hlt
    exact Nat.lt_irrefl _ hlt
  · intro hall ks b p hp
    rw [pair_mem_drawnItems_iff a hp]
    have hlt := (List.getElem?_eq_some_iff.1 hp).1
    rw [(hselected ks).report] at hlt
    exact Nat.lt_of_lt_of_le hlt hall

/-- A report on two models with two specifications each, in panels with room for one item. The
second specification of the second model is selected and drawn, the model itself is not. -/
theorem selections_drawn_two_models :
    let found (name : String) : SpecificationResult := ⟨name, .pass, 0, 0, []⟩
    let model (name : String) : FileResult := ⟨name, 0, [found "Walls", found "Doors"]⟩
    let r : Report := { documents := [⟨"rules", [model "a.ifc", model "b.ifc"]⟩] }
    let a : Area := ⟨0, 3, 18, 4⟩
    let b := pressAll { report := r } [.left, .down, .right, .down]
    4 ≤ a.height ∧ b.selectedSpecification? = some (found "Doors") ∧
      (found "Doors", 1) ∈ drawnRows a (b.shownSpecifications a.height) ∧
      b.selectedPair? = some ⟨"rules", model "b.ifc"⟩ ∧
      (⟨"rules", model "b.ifc"⟩, 1) ∉ drawnItems a (b.shownPairs a.height) := by
  intro found model r a b
  have hspecification : b.selectedSpecification? = some (found "Doors") := by decide
  have hplace : b.specification = 1 ∧ b.pair = 1 := by decide
  have hpair : b.selectedPair? = some ⟨"rules", model "b.ifc"⟩ := by decide
  obtain ⟨hspecifications, -, hpairs⟩ :=
    (selections_drawn r a (by decide)).1 [.left, .down, .right, .down]
  obtain ⟨s, hs, hdrawn⟩ := hspecifications (by decide)
  obtain ⟨p, hp, hiff⟩ := hpairs (by decide)
  cases hspecification.symm.trans hs
  cases hpair.symm.trans hp
  rw [hplace.1] at hdrawn
  rw [hplace.2] at hiff
  exact ⟨by decide, hspecification, hdrawn, hpair, fun h => absurd (hiff.1 h) (by decide)⟩

/-- A selected pair that is not drawn: the second one, in a panel with room for one. -/
theorem exists_hidden_pair :
    let r : Report := { documents := [⟨"rules", [⟨"a.ifc", 0, []⟩, ⟨"b.ifc", 0, []⟩]⟩] }
    let a : Area := ⟨0, 3, 18, 4⟩
    let b := pressAll { report := r } [.left, .down]
    4 ≤ a.height ∧ r.pairs ≠ [] ∧ b.selectedPair? = some ⟨"rules", ⟨"b.ifc", 0, []⟩⟩ ∧
      (⟨"rules", ⟨"b.ifc", 0, []⟩⟩, b.pair) ∉ drawnItems a (b.shownPairs a.height) := by
  decide

end BimAudit.Browser
