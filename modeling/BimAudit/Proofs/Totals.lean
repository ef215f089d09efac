import BimAudit.Total

/-!
# Lemmas on totals

Totals may be taken apart, and a table may be added up by rows or by columns.

* `total_append`, `total_map`, `total_add`: a total taken apart.
* `total_le`, `total_eq_mul`: totals of items that count for at most or exactly the same.
* `total_eq_of_others`: what only one item counts for is the total.
* `total_columns`: adding up column by column is adding up row by row.
-/

namespace BimAudit

variable {α β : Type}

theorem total_append (f : α → Nat) (l l' : List α) :
    total f (l ++ l') = total f l + total f l' := by
  induction l with
  | nil => exact (Nat.zero_add _).symm
  | cons a l ih => rw [List.cons_append, total_cons, total_cons, ih, Nat.add_assoc]

theorem total_map (f : α → Nat) (g : β → α) (l : List β) :
    total f (l.map g) = total (fun b => f (g b)) l := by
  induction l with
  | nil => rfl
  | cons b l ih => rw [List.map_cons, total_cons, total_cons, ih]

theorem total_congr {f g : α → Nat} {l : List α} (h : ∀ a ∈ l, f a = g a) :
    total f l = total g l := by
  induction l with
  | nil => rfl
  | cons a l ih =>
    rw [total_cons, total_cons, h a List.mem_cons_self,
      ih fun b hb => h b (List.mem_cons_of_mem _ hb)]

/-- What counts for more item by item counts for more in total. -/
theorem total_le_total {f g : α → Nat} {l : List α} (h : ∀ a ∈ l, f a ≤ g a) :
    total f l ≤ total g l := by
  induction l with
  | nil => exact Nat.le_refl _
  | cons a l ih =>
    rw [total_cons, total_cons]
    exact Nat.add_le_add (h a List.mem_cons_self) (ih fun b hb => h b (List.mem_cons_of_mem _ hb))

/-- A total of sums is the sum of the totals. -/
theorem total_add (f g : α → Nat) (l : List α) :
    total (fun a => f a + g a) l = total f l + total g l := by
  induction l with
  | nil => rfl
  | cons a l ih =>
    rw [total_cons, total_cons, total_cons, ih]
    omega

theorem total_eq_zero {f : α → Nat} {l : List α} (h : ∀ a ∈ l, f a = 0) : total f l = 0 := by
  induction l with
  | nil => rfl
  | cons a l ih =>
    rw [total_cons, h a List.mem_cons_self, ih fun b hb => h b (List.mem_cons_of_mem _ hb)]

/-- A total is bounded by the number of items. -/
theorem total_le {f : α → Nat} {l : List α} {n : Nat} (h : ∀ a ∈ l, f a ≤ n) :
    total f l ≤ l.length * n := by
  induction l with
  | nil => exact Nat.zero_le _
  | cons a l ih =>
    have ha := h a List.mem_cons_self
    have hrest := ih fun b hb => h b (List.mem_cons_of_mem _ hb)
    rw [total_cons, List.length_cons, Nat.succ_mul]
    omega

/-- Items that count for the same are counted. -/
theorem total_eq_mul {f : α → Nat} {l : List α} {n : Nat} (h : ∀ a ∈ l, f a = n) :
    total f l = l.length * n := by
  induction l with
  | nil => rw [List.length_nil, Nat.zero_mul]; rfl
  | cons a l ih =>
    rw [total_cons, h a List.mem_cons_self, ih fun b hb => h b (List.mem_cons_of_mem _ hb),
      List.length_cons, Nat.succ_mul, Nat.add_comm]

/-- What only one item counts for is the total. -/
theorem total_eq_of_others {f : α → Nat} {l : List α} {k : Nat} {a : α} (hk : l[k]? = some a)
    (h : ∀ j b, j ≠ k → l[j]? = some b → f b = 0) : total f l = f a := by
  induction l generalizing k with
  | nil => cases hk
  | cons b l ih =>
    cases k with
    | zero =>
      cases hk
      have hrest : total f l = 0 := by
        refine total_eq_zero fun c hc => ?_
        obtain ⟨j, hj⟩ := List.mem_iff_getElem?.1 hc
        exact h (j + 1) c (Nat.succ_ne_zero j) hj
      rw [total_cons, hrest, Nat.add_zero]
    | succ k =>
      have hb : f b = 0 := h 0 b (Nat.succ_ne_zero k).symm rfl
      have hrest := ih hk fun j c hj hc => h (j + 1) c (fun heq => hj (Nat.succ.inj heq)) hc
      rw [total_cons, hb, hrest, Nat.zero_add]

/-! ### Tables -/

/-- An item counts at its place, whatever number of places there are behind the last one. -/
theorem total_places (f : α → Nat) {row : List α} {n : Nat} (h : row.length ≤ n) :
    total (fun j => total f row[j]?.toList) (List.range n) = total f row := by
  induction row generalizing n with
  | nil => exact total_eq_zero fun _ _ => rfl
  | cons a row ih =>
    cases n with
    | zero => cases h
    | succ n =>
      rw [List.range_succ_eq_map, total_cons, total_cons, total_map,
        ← ih (Nat.le_of_succ_le_succ h)]
      rfl

/-- **Adding up column by column is adding up row by row.** -/
theorem total_columns (f : α → Nat) {rows : List (List α)} {n : Nat}
    (h : ∀ row ∈ rows, row.length ≤ n) :
    total (fun j : Nat => total f (rows.filterMap (·[j]?))) (List.range n)
      = total (total f) rows := by
  induction rows with
  | nil => exact total_eq_zero fun _ _ => rfl
  | cons row rows ih =>
    have hcons : ∀ j : Nat, total f ((row :: rows).filterMap (·[j]?))
        = total f row[j]?.toList + total f (rows.filterMap (·[j]?)) := by
      intro j
      rw [← total_append, List.filterMap_cons]
      cases row[j]? <;> rfl
    simp only [hcons]
    rw [total_add, total_places f (h row List.mem_cons_self),
      ih fun row' hrow => h row' (List.mem_cons_of_mem _ hrow), total_cons]

end BimAudit
