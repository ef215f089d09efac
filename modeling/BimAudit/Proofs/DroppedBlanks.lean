import BimAudit.Proofs.TrimmedText
import Mathlib.Data.List.TakeWhile

/-!
# Texts that lose blanks inside

A text is put together from parts, and blanks at the ends of some parts are dropped. Trimmed, it is
what it would have been with these blanks if none of them stands between two others that are no
blanks; else it is another text.

* `Part`, `whole`, `left`: a text in parts, with what is dropped and without it.
* `Tight`: nothing that is dropped separates what is left.
* `trim_left_eq_trim_whole_iff`: **when trimming makes up for what is dropped.**
-/

namespace BimAudit.Text

/-- There is nothing but blanks. -/
def Blank (s : List Char) : Prop := ∀ c ∈ s, isBlank c = true

instance (s : List Char) : Decidable (Blank s) :=
  decidable_of_iff (s.all isBlank = true) List.all_eq_true

/-- A part of a text. -/
inductive Part where
  | kept (s : List Char)
  | dropped (s : List Char)
deriving DecidableEq, Repr

/-- The text with everything. -/
def whole : List Part → List Char
  | [] => []
  | .kept s :: ps => s ++ whole ps
  | .dropped s :: ps => s ++ whole ps

/-- The text without what is dropped. -/
def left : List Part → List Char
  | [] => []
  | .kept s :: ps => s ++ left ps
  | .dropped _ :: ps => left ps

/-- Behind the text `q`, nothing but blanks stands on one of the two sides of every part that is
dropped. -/
def TightBehind (q : List Char) : List Part → Prop
  | [] => True
  | .kept s :: ps => TightBehind (q ++ s) ps
  | .dropped s :: ps =>
    (s = [] ∨ Blank q ∨ Blank (whole ps)) ∧ TightBehind (q ++ s) ps

/-- Nothing but blanks stands on one of the two sides of every part that is dropped. -/
def Tight (ps : List Part) : Prop := TightBehind [] ps

/-- Only blanks are dropped. -/
def DropsBlanks (ps : List Part) : Prop := ∀ s, .dropped s ∈ ps → Blank s

instance decidableTightBehind : ∀ (q : List Char) (ps : List Part), Decidable (TightBehind q ps)
  | _, [] => .isTrue trivial
  | q, .kept s :: ps => decidableTightBehind (q ++ s) ps
  | q, .dropped s :: ps =>
    @instDecidableAnd _ _ inferInstance (decidableTightBehind (q ++ s) ps)

instance (ps : List Part) : Decidable (Tight ps) := decidableTightBehind [] ps

variable {a b s q : List Char} {ps : List Part}

/-! ### Blanks -/

theorem blank_append : Blank (a ++ b) ↔ Blank a ∧ Blank b := List.forall_mem_append

/-- Blanks in front are trimmed off with those that follow them. -/
theorem trim_blank_append (h : Blank a) (b : List Char) : trim (a ++ b) = trim b := by
  unfold trim trimStart
  rw [List.dropWhile_append_of_pos h]

theorem trimStart_ne_nil (h : ¬ Blank a) : trimStart a ≠ [] := fun hnil =>
  h (List.dropWhile_eq_nil_iff.1 hnil)

theorem trimStart_append (ha : ¬ Blank a) (b : List Char) :
    trimStart (a ++ b) = trimStart a ++ b :=
  dropWhile_append_of_ne_nil (trimStart_ne_nil ha) b

/-- If something stands behind, trimming the end stops there. -/
theorem trimEnd_append (hb : ¬ Blank b) (a : List Char) : trimEnd (a ++ b) = a ++ trimEnd b := by
  have hreverse : b.reverse.dropWhile isBlank ≠ [] := fun hnil =>
    hb fun c hc => List.dropWhile_eq_nil_iff.1 hnil c (List.mem_reverse.2 hc)
  unfold trimEnd
  rw [List.reverse_append, dropWhile_append_of_ne_nil hreverse, List.reverse_append,
    List.reverse_reverse]

/-- Between two texts that are not blank nothing is trimmed. -/
theorem trim_append (ha : ¬ Blank a) (hb : ¬ Blank b) :
    trim (a ++ b) = trimStart a ++ trimEnd b := by
  rw [trim, trimStart_append ha, trimEnd_append hb]

/-- A text that has lost some characters does not begin later. -/
theorem length_dropWhile_le_of_sublist {f : Char → Bool} (h : a.Sublist b) :
    (a.dropWhile f).length ≤ (b.dropWhile f).length := by
  induction h with
  | slnil => exact Nat.le_refl _
  | @cons a b c h ih =>
    rw [List.dropWhile_cons]
    split
    · exact ih
    · exact Nat.le_trans (length_dropWhile_le f a) (Nat.le_succ_of_le h.length_le)
  | @cons_cons a b c h ih =>
    rw [List.dropWhile_cons, List.dropWhile_cons]
    split
    · exact ih
    · exact Nat.succ_le_succ h.length_le

/-- A text that has lost some characters does not end later. -/
theorem length_trimEnd_le_of_sublist (h : a.Sublist b) :
    (trimEnd a).length ≤ (trimEnd b).length := by
  unfold trimEnd
  rw [List.length_reverse, List.length_reverse]
  exact length_dropWhile_le_of_sublist h.reverse

/-! ### What is left -/

theorem whole_append (ps qs : List Part) : whole (ps ++ qs) = whole ps ++ whole qs := by
  induction ps with
  | nil => rfl
  | cons p ps ih => cases p <;> simp [whole, ih]

theorem left_append (ps qs : List Part) : left (ps ++ qs) = left ps ++ left qs := by
  induction ps with
  | nil => rfl
  | cons p ps ih => cases p <;> simp [left, ih]

/-- What is left of a text is what it was without some of its characters. -/
theorem left_sublist_whole (ps : List Part) : (left ps).Sublist (whole ps) := by
  induction ps with
  | nil => exact .slnil
  | cons p ps ih =>
    cases p with
    | kept s => exact ih.append_left s
    | dropped s => exact ih.trans (List.sublist_append_right s (whole ps))

theorem DropsBlanks.tail {p : Part} (h : DropsBlanks (p :: ps)) : DropsBlanks ps := fun s hs =>
  h s (List.mem_cons_of_mem p hs)

/-- If only blanks are dropped, nothing is left exactly if nothing was there. -/
theorem blank_whole_iff (h : DropsBlanks ps) : Blank (whole ps) ↔ Blank (left ps) := by
  induction ps with
  | nil => exact Iff.rfl
  | cons p ps ih =>
    cases p with
    | kept s => rw [whole, left, blank_append, blank_append, ih h.tail]
    | dropped s =>
      rw [whole, left, blank_append, ih h.tail, and_iff_right (h s List.mem_cons_self)]

/-- Blanks that are dropped between two others that are no blanks are missing. -/
theorem trim_left_ne_trim_whole (h : DropsBlanks ps) (hs : s ≠ []) (hq : ¬ Blank q)
    (hps : ¬ Blank (whole ps)) : trim (q ++ left ps) ≠ trim (q ++ (s ++ whole ps)) := by
  have hbehind : ¬ Blank (s ++ whole ps) := fun hblank => hps (blank_append.1 hblank).2
  rw [trim_append hq fun hblank => hps ((blank_whole_iff h).2 hblank), trim_append hq hbehind,
    trimEnd_append hps]
  intro heq
  have hlength := congrArg List.length (List.append_cancel_left heq)
  have hle := length_trimEnd_le_of_sublist (left_sublist_whole ps)
  have hpos := List.length_pos_iff.2 hs
  rw [List.length_append] at hlength
  omega

/-- **When a text is trimmed to the same** with and without the blanks that are dropped behind a
text `q`. The induction is on the parts, which move behind `q` one after the other. -/
theorem trim_append_left_iff (h : DropsBlanks ps) (q : List Char) :
    trim (q ++ left ps) = trim (q ++ whole ps) ↔ TightBehind q ps := by
  induction ps generalizing q with
  | nil => exact iff_of_true rfl trivial
  | cons p ps ih =>
    have ih := ih h.tail
    cases p with
    | kept s =>
      rw [left, whole, TightBehind, ← ih, List.append_assoc, List.append_assoc]
    | dropped s =>
      have hrest := ih (q ++ s)
      rw [List.append_assoc, List.append_assoc] at hrest
      rw [left, whole, TightBehind, ← hrest]
      by_cases hs : s = []
      · rw [hs, and_iff_right (.inl rfl)]
        rfl
      by_cases hq : Blank q
      · -- both are blanks in front of the text
        have hblank := h s List.mem_cons_self
        rw [and_iff_right (.inr (.inl hq)), trim_blank_append hq, trim_blank_append hq,
          trim_blank_append hq, trim_blank_append hblank, trim_blank_append hblank]
      by_cases hps : Blank (whole ps)
      · -- nothing but blanks stands behind `q`
        have hblank := h s List.mem_cons_self
        have hleft := (blank_whole_iff h.tail).1 hps
        refine iff_of_true ?_ ⟨.inr (.inr hps), ?_⟩
        · rw [trim_append_blanks hleft, trim_append_blanks (blank_append.2 ⟨hblank, hps⟩)]
        · rw [trim_append_blanks (blank_append.2 ⟨hblank, hleft⟩),
            trim_append_blanks (blank_append.2 ⟨hblank, hps⟩)]
      · refine iff_of_false (trim_left_ne_trim_whole h.tail hs hq hps) fun hnot => ?_
        rcases hnot.1 with hnot | hnot | hnot
        · exact hs hnot
        · exact hq hnot
        · exact hps hnot

/-- **When trimming makes up for what is dropped**: nothing but blanks stands on one of the two
sides of every part that is dropped. -/
theorem trim_left_eq_trim_whole_iff (h : DropsBlanks ps) :
    trim (left ps) = trim (whole ps) ↔ Tight ps := trim_append_left_iff h []

end BimAudit.Text
