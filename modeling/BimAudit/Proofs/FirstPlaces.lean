import BimAudit.Text.Ascii
import Mathlib.Data.List.Infix

/-!
# The first place of a mark

A text is cut at the first place where some characters occur. Put behind a text, they occur there
first, unless they are found earlier with the help of their own beginning.

* `position?_append`: **where a mark is found first.**
-/

namespace BimAudit.Text

variable {p a : List Char}

/-- The characters `p` are not found in the text, not even with the beginning of themselves put
behind it. So they are found first where they are put behind it as a whole. -/
def Free (p a : List Char) : Prop := ¬ p <:+: a ++ p.dropLast

instance (p a : List Char) : Decidable (Free p a) := inferInstanceAs (Decidable (¬ _))

theorem Free.ne_nil (h : Free p a) : p ≠ [] := by
  rintro rfl
  exact h (List.nil_infix)

theorem Free.tail {c : Char} (h : Free p (c :: a)) : Free p a := fun hinfix =>
  h (List.infix_cons hinfix)

/-- Nothing that follows makes them found earlier. -/
theorem Free.not_begins {c : Char} (h : Free p (c :: a)) (b : List Char) :
    ¬ p <+: c :: (a ++ (p ++ b)) := by
  intro hbegin
  have hstart : c :: a ++ p.dropLast <+: c :: (a ++ (p ++ b)) := by
    rw [← List.cons_append, List.prefix_append_right_inj]
    have hdrop : p.dropLast <+: p := List.dropLast_prefix p
    exact hdrop.trans (List.prefix_append p b)
  have hlength : p.length ≤ (c :: a ++ p.dropLast).length := by
    rw [List.length_append, List.length_dropLast, List.length_cons]
    omega
  exact h (List.prefix_of_prefix_length_le hbegin hstart hlength).isInfix

/-- **The first place of a mark** behind a text that is free of it is there. -/
theorem position?_append (h : Free p a) (b : List Char) :
    position? p (a ++ (p ++ b)) = some a.length := by
  induction a with
  | nil =>
    obtain ⟨d, q, rfl⟩ := List.exists_cons_of_ne_nil h.ne_nil
    have hbegin : (d :: q).isPrefixOf (d :: (q ++ b)) = true :=
      List.isPrefixOf_iff_prefix.2 (List.prefix_append (d :: q) b)
    rw [List.nil_append, List.cons_append, position?, if_pos hbegin, List.length_nil]
  | cons c a ih =>
    have hbegin : ¬ p.isPrefixOf (c :: (a ++ (p ++ b))) = true := fun hbegin =>
      h.not_begins b (List.isPrefixOf_iff_prefix.1 hbegin)
    rw [List.cons_append, position?, if_neg hbegin, ih h.tail]
    rfl

end BimAudit.Text
