import Mathlib.Data.List.Forall2
import BimAudit.Proofs.Dictionaries
import BimAudit.Workbook.Document

/-!
# The order of columns

The cells of a row are taken over in the order in which its columns happen to be visited. Columns
whose names differ in nothing but case and blanks meet in one column, and of these the one visited
last counts. So a row does not depend on the order if and only if columns that meet hold the same
cell. A document depends on nothing but the cells that are found by the names of columns, so if all
rows are like that, neither the document nor the warnings depend on an order.

* `orderFree_iff`: the rows that are the same in every order.
* `document?_congr`: workbooks with the same cells have the same document and warnings.
* `document?_of_reordered`: **the order of columns does not matter where those that meet agree.**
-/

namespace BimAudit.Workbook

/-- The two rows have the same cell in every column. -/
def Row.Same (r r' : Row) : Prop := ∀ column, r.find? column = r'.find? column

/-- Columns that meet hold the same cell. -/
def Agree (cells : List (String × String)) : Prop :=
  ∀ a ∈ cells, ∀ b ∈ cells, canonicalName a.1 = canonicalName b.1 → a.2 = b.2

instance (cells : List (String × String)) : Decidable (Agree cells) :=
  inferInstanceAs (Decidable (∀ a ∈ cells, ∀ b ∈ cells, _ → _))

/-- The row is the same for every order in which its columns are visited. -/
def OrderFree (cells : List (String × String)) : Prop :=
  ∀ cells', cells.Perm cells' → (Row.ofCells cells).Same (Row.ofCells cells')

/-! ### Rows -/

/-- Of the columns that meet, the one that is visited last is found. -/
theorem find?_ofCells (cells : List (String × String)) (column : String) :
    (Row.ofCells cells).find? column =
      (cells.reverse.find? fun c => canonicalName c.1 = column).map (·.2) := by
  rw [Row.ofCells, Dictionary.find?_ofList, ← List.map_reverse, List.find?_map, Option.map_map]
  simp only [Function.comp_def]

/-- **The column that is visited last counts.** -/
theorem find?_ofCells_concat (cells : List (String × String)) (a : String × String) :
    (Row.ofCells (cells ++ [a])).find? (canonicalName a.1) = some a.2 := by
  rw [find?_ofCells, List.reverse_concat]
  simp

/-- Every column can be visited last. -/
theorem exists_perm_concat {cells : List (String × String)} {a : String × String}
    (h : a ∈ cells) : ∃ others, cells.Perm (others ++ [a]) := by
  obtain ⟨s, t, rfl⟩ := List.append_of_mem h
  exact ⟨s ++ t, List.perm_middle.trans (List.perm_append_singleton a (s ++ t)).symm⟩

/-- Where columns that meet agree, any of them can be looked at. -/
theorem Agree.find?_eq_some_iff {cells : List (String × String)} (h : Agree cells)
    {column value : String} : (Row.ofCells cells).find? column = some value ↔
      ∃ c ∈ cells, canonicalName c.1 = column ∧ c.2 = value := by
  rw [find?_ofCells, Option.map_eq_some_iff]
  constructor
  · rintro ⟨c, hc, rfl⟩
    exact ⟨c, List.mem_reverse.1 (List.mem_of_find?_eq_some hc),
      by simpa using List.find?_some hc, rfl⟩
  · rintro ⟨c, hc, rfl, rfl⟩
    cases hfind : cells.reverse.find? fun b => canonicalName b.1 = canonicalName c.1 with
    | none =>
      have hnone := List.find?_eq_none.1 hfind c (List.mem_reverse.2 hc)
      simp at hnone
    | some b =>
      have hb := List.mem_reverse.1 (List.mem_of_find?_eq_some hfind)
      exact ⟨b, rfl, h b hb c hc (by simpa using List.find?_some hfind)⟩

/-- **A row is the same in every order exactly if columns that meet agree.** -/
theorem orderFree_iff (cells : List (String × String)) : OrderFree cells ↔ Agree cells := by
  constructor
  · -- each of two columns that meet can be the last one
    intro h a ha b hb hmeet
    obtain ⟨s, hs⟩ := exists_perm_concat ha
    obtain ⟨t, ht⟩ := exists_perm_concat hb
    have hvalue : some a.2 = some b.2 := by
      rw [← find?_ofCells_concat s a, ← find?_ofCells_concat t b, ← h _ hs, ← h _ ht, hmeet]
    exact Option.some.inj hvalue
  · intro h cells' hperm column
    have h' : Agree cells' := fun a ha b hb =>
      h a (hperm.mem_iff.2 ha) b (hperm.mem_iff.2 hb)
    refine Option.ext fun value => ?_
    rw [h.find?_eq_some_iff, h'.find?_eq_some_iff]
    simp only [hperm.mem_iff]

/-! ### What is read of a row -/

section Congruence

variable {r r' : Row}

theorem Row.Same.cell (h : r.Same r') : r.cell = r'.cell := by
  funext column
  rw [Row.cell, Row.cell, h column]

theorem Row.Same.cell? (h : r.Same r') : r.cell? = r'.cell? := by
  funext column
  rw [Row.cell?, Row.cell?, h.cell]

/-- A row of `specifications` does the same as one with the same cells. -/
theorem takeSpecification_congr (h : r.Same r') (d : Draft) (row : Nat) :
    takeSpecification d row r = takeSpecification d row r' := by
  unfold takeSpecification specificationOf specificationId
  rw [h.cell?]

theorem takeApplicability_congr (h : r.Same r') (d : Draft) (row : Nat) :
    takeApplicability d row r = takeApplicability d row r' := by
  unfold takeApplicability conditionOf restrictionIn
  rw [h.cell]

theorem takeRequirement_congr (h : r.Same r') (ps : List Property) (d : Draft) (row : Nat) :
    takeRequirement ps d row r = takeRequirement ps d row r' := by
  unfold takeRequirement requirementOf
  rw [h.cell]

theorem propertyOf?_congr (h : r.Same r') : propertyOf? r = propertyOf? r' := by
  unfold propertyOf?
  rw [h.cell, h.cell?]

variable {rows rows' : List Row}

/-- **Rows with the same cells change a draft in the same way.** -/
theorem take_congr {step : Draft → Nat → Row → Draft}
    (hstep : ∀ {r r'}, r.Same r' → ∀ d row, step d row r = step d row r')
    (h : List.Forall₂ Row.Same rows rows') (d : Draft) : d.take step rows = d.take step rows' := by
  unfold Draft.take
  generalize 2 = start
  induction h generalizing d start with
  | nil => rfl
  | cons hr _ ih =>
    rw [List.zipIdx_cons, List.zipIdx_cons, List.foldl_cons, List.foldl_cons, hstep hr, ih]

/-- The properties are the same for rows with the same cells. -/
theorem filterMap_propertyOf?_congr (h : List.Forall₂ Row.Same rows rows') :
    rows.filterMap propertyOf? = rows'.filterMap propertyOf? := by
  induction h with
  | nil => rfl
  | cons hr _ ih => rw [List.filterMap_cons, List.filterMap_cons, propertyOf?_congr hr, ih]

end Congruence

/-! ### Workbooks -/

/-- The two workbooks have the same sheets, and their rows have the same cells. -/
def Same (w w' : Workbook) : Prop :=
  ∀ name, Option.Rel (List.Forall₂ Row.Same) (w.sheet? name) (w'.sheet? name)

section Congruence

variable {w w' : Workbook}

/-- The rows of a sheet have the same cells if the workbooks are the same, also of one that is
missing. -/
theorem Same.rows (h : w.Same w') (name : String) :
    List.Forall₂ Row.Same (w.rows name) (w'.rows name) := by
  have hsheet := h name
  unfold Workbook.rows
  generalize w.sheet? name = sheet, w'.sheet? name = sheet' at hsheet
  cases hsheet with
  | none => exact .nil
  | some hrows => exact hrows

/-- The information depends on cells only. -/
theorem infoOf_congr (h : w.Same w') : infoOf w = infoOf w' := by
  have hrows := h.rows "info"
  unfold infoOf
  generalize w.rows "info" = rows, w'.rows "info" = rows' at hrows
  cases hrows with
  | nil => rfl
  | cons hr _ =>
    dsimp only [List.head?_cons]
    rw [hr.cell?]

/-- **The draft depends on cells only.** -/
theorem draft_congr (h : w.Same w') : w.draft = w'.draft := by
  unfold draft properties
  dsimp only
  rw [take_congr takeSpecification_congr (h.rows "specifications"),
    take_congr takeApplicability_congr (h.rows "applicability"),
    filterMap_propertyOf?_congr (h.rows "psets_lookup"),
    take_congr (takeRequirement_congr · _) (h.rows "element_psets")]

/-- **A document depends on nothing but the cells of the rows.** -/
theorem document?_congr (h : w.Same w') : w.document? = w'.document? := by
  have hsheets : ∀ name, (w.sheet? name).isNone = (w'.sheet? name).isNone := by
    intro name
    have hsheet := h name
    generalize w.sheet? name = sheet, w'.sheet? name = sheet' at hsheet
    cases hsheet <;> rfl
  unfold document?
  rw [infoOf_congr h, draft_congr h]
  simp only [hsheets]

/-- A sheet with the same cells may be inserted. -/
theorem Same.insert (h : w.Same w') (name : String) {rows rows' : List (List (String × String))}
    (hrows : List.Forall₂ (fun s t => (Row.ofCells s).Same (Row.ofCells t)) rows rows') :
    (w.insert name rows).Same (w'.insert name rows') := by
  intro n
  unfold Workbook.insert sheet?
  rw [Dictionary.find?_insert, Dictionary.find?_insert]
  split
  case isTrue => exact .some (List.forall₂_map_left_iff.2 (List.forall₂_map_right_iff.2 hrows))
  case isFalse => exact h n

end Congruence

/-- The workbook with the given sheets, inserted one after the other. -/
def ofSheets (sheets : List (String × List (List (String × String)))) : Workbook :=
  sheets.foldl (fun w s => w.insert s.1 s.2) {}

/-- The sheets are the same but for the orders in which the columns of rows are visited. -/
def Reordered (sheets sheets' : List (String × List (List (String × String)))) : Prop :=
  List.Forall₂ (fun s t => s.1 = t.1 ∧ List.Forall₂ List.Perm s.2 t.2) sheets sheets'

/-- Rows with their columns in another order have the same cells if no order matters to them. -/
theorem same_of_perm {rows rows' : List (List (String × String))}
    (h : List.Forall₂ List.Perm rows rows') (hfree : ∀ cells ∈ rows, OrderFree cells) :
    List.Forall₂ (fun s t => (Row.ofCells s).Same (Row.ofCells t)) rows rows' := by
  induction h with
  | nil => exact .nil
  | cons hperm _ ih =>
    exact .cons (hfree _ List.mem_cons_self _ hperm)
      (ih fun cells hcells => hfree cells (List.mem_cons_of_mem _ hcells))

/-- **Workbooks are the same for every order of the columns** if none matters to any row. -/
theorem same_foldl_of_reordered {sheets sheets' : List (String × List (List (String × String)))}
    (h : Reordered sheets sheets') (hrows : ∀ s ∈ sheets, ∀ cells ∈ s.2, OrderFree cells)
    {w w' : Workbook} (hw : w.Same w') :
    Same (sheets.foldl (fun w s => w.insert s.1 s.2) w)
      (sheets'.foldl (fun w s => w.insert s.1 s.2) w') := by
  induction h generalizing w w' with
  | nil => exact hw
  | @cons s t _ _ hst _ ih =>
    obtain ⟨hname, hperm⟩ := hst
    refine ih (fun u hu => hrows u (List.mem_cons_of_mem _ hu)) ?_
    dsimp only
    rw [← hname]
    exact hw.insert s.1 (same_of_perm hperm (hrows s List.mem_cons_self))

/-- **The order of columns does not matter where those that meet agree**: neither for the rows of
the sheets nor for the document and the warnings. For any other row it does matter. -/
theorem document?_of_reordered {sheets sheets' : List (String × List (List (String × String)))}
    (h : Reordered sheets sheets') :
    (∀ s ∈ sheets, ∀ cells ∈ s.2, OrderFree cells ↔ Agree cells) ∧
      ((∀ s ∈ sheets, ∀ cells ∈ s.2, Agree cells) → (ofSheets sheets).Same (ofSheets sheets') ∧
        (ofSheets sheets).document? = (ofSheets sheets').document?) := by
  refine ⟨fun _ _ cells _ => orderFree_iff cells, fun hagree => ?_⟩
  have hsame : (ofSheets sheets).Same (ofSheets sheets') :=
    same_foldl_of_reordered h
      (fun s hs cells hcells => (orderFree_iff cells).2 (hagree s hs cells hcells)) fun _ => .none
  exact ⟨hsame, document?_congr hsame⟩

/-- The sheets that have to be there, with one specification. -/
def specified (cells : List (String × String)) : List (String × List (List (String × String))) :=
  [("info", []), ("specifications", [cells])]

/-- One specification with its columns in another order. -/
theorem reordered_specified {cells cells' : List (String × String)} (h : cells.Perm cells') :
    Reordered (specified cells) (specified cells') :=
  .cons ⟨rfl, .nil⟩ (.cons ⟨rfl, .cons h .nil⟩ .nil)

/-- Two columns that meet hold the same cell, so their order makes no difference. -/
theorem document?_of_reordered_same_name :
    Reordered (specified [("NAME", "A"), ("name ", "A")])
        (specified [("name ", "A"), ("NAME", "A")]) ∧
      (∀ s ∈ specified [("NAME", "A"), ("name ", "A")], ∀ cells ∈ s.2, Agree cells) ∧
      (ofSheets (specified [("NAME", "A"), ("name ", "A")])).document? =
        (ofSheets (specified [("name ", "A"), ("NAME", "A")])).document? :=
  have hagree : ∀ s ∈ specified [("NAME", "A"), ("name ", "A")], ∀ cells ∈ s.2, Agree cells := by
    decide +kernel
  have hreordered := reordered_specified (.swap _ _ _)
  ⟨hreordered, hagree, ((document?_of_reordered hreordered).2 hagree).2⟩

/-- Two columns that meet and hold different cells give two documents. -/
theorem document?_ne_of_reordered :
    Reordered (specified [("NAME", "A"), ("name ", "B")])
        (specified [("name ", "B"), ("NAME", "A")]) ∧
      ¬ (Row.ofCells [("NAME", "A"), ("name ", "B")]).Same
        (Row.ofCells [("name ", "B"), ("NAME", "A")]) ∧
      (ofSheets (specified [("NAME", "A"), ("name ", "B")])).document? ≠
        (ofSheets (specified [("name ", "B"), ("NAME", "A")])).document? := by
  refine ⟨reordered_specified (.swap _ _ _), fun h => ?_, fun h => ?_⟩
  · have hname := h "name"
    revert hname
    decide +kernel
  · have hnames := congrArg
      (fun x => x.toOption.map fun y => y.1.specifications.map (·.name)) h
    revert hnames
    decide +kernel

end BimAudit.Workbook
