/-!
# Totals

What the items of a list count for, added up.
-/

namespace BimAudit

/-- The sum of what the items of a list count for. -/
def total {α : Type} (f : α → Nat) : List α → Nat
  | [] => 0
  | a :: r => f a + total f r

@[simp] theorem total_nil {α : Type} (f : α → Nat) : total f [] = 0 := rfl

@[simp] theorem total_cons {α : Type} (f : α → Nat) (a : α) (r : List α) :
    total f (a :: r) = f a + total f r := rfl

end BimAudit
