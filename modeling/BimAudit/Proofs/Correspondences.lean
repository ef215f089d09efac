import Mathlib.Data.List.Forall2

/-!
# Lists that correspond

Two lists correspond if their items are related one by one, in order. What is taken from the items
of a list corresponds to these items, or to their counterparts in another list.

* `exists_of_forall₂_left`, `exists_of_forall₂_right`: every item has its counterpart.
* `forall₂_filterMap`, `sublistForall₂_filterMap`: what is taken from all items, or from some.
-/

namespace BimAudit

variable {α β γ : Type}

/-- What stands in the one list has its counterpart in the other. -/
theorem exists_of_forall₂_left {R : α → β → Prop} {as : List α} {bs : List β}
    (h : List.Forall₂ R as bs) {a : α} (ha : a ∈ as) : ∃ b ∈ bs, R a b := by
  induction h with
  | nil => cases ha
  | cons hab _ ih =>
    rcases List.mem_cons.1 ha with rfl | ha
    · exact ⟨_, List.mem_cons_self, hab⟩
    · obtain ⟨b, hb, hab⟩ := ih ha
      exact ⟨b, List.mem_cons_of_mem _ hb, hab⟩

theorem exists_of_forall₂_right {R : α → β → Prop} {as : List α} {bs : List β}
    (h : List.Forall₂ R as bs) {b : β} (hb : b ∈ bs) : ∃ a ∈ as, R a b :=
  exists_of_forall₂_left (R := flip R) h.flip hb

/-- Where a look-up finds something at each place, it finds these things in order. -/
theorem forall₂_filterMap {f : α → Option β} {l : List α} (h : ∀ a ∈ l, (f a).isSome = true) :
    List.Forall₂ (fun a b => f a = some b) l (l.filterMap f) := by
  induction l with
  | nil => exact .nil
  | cons a l ih =>
    obtain ⟨b, hb⟩ := Option.isSome_iff_exists.1 (h a List.mem_cons_self)
    rw [List.filterMap_cons_some hb]
    exact .cons hb (ih fun c hc => h c (List.mem_cons_of_mem _ hc))

/-- What is taken from some items corresponds, in order, to some of their counterparts. -/
theorem sublistForall₂_filterMap {R : β → γ → Prop} {f : α → Option β} {l : List α} {l' : List γ}
    (hlength : l.length = l'.length)
    (h : ∀ (i : Nat) (a : α) (b : β), l[i]? = some a → f a = some b →
      ∃ c, l'[i]? = some c ∧ R b c) : List.SublistForall₂ R (l.filterMap f) l' := by
  induction l generalizing l' with
  | nil => exact .nil
  | cons a l ih =>
    cases l' with
    | nil => cases hlength
    | cons c l' =>
      have htail := ih (Nat.succ.inj hlength) fun i => h (i + 1)
      cases ha : f a with
      | none =>
        rw [List.filterMap_cons_none ha]
        exact .cons_right htail
      | some b =>
        obtain ⟨c', hc, hR⟩ := h 0 a b rfl ha
        cases hc
        rw [List.filterMap_cons_some ha]
        exact .cons hR htail

end BimAudit
