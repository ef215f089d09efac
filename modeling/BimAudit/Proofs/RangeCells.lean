import BimAudit.Proofs.FirstPlaces
import BimAudit.Proofs.NumberLiterals
import BimAudit.Proofs.TrimmedText
import BimAudit.Workbook.Restriction

/-!
# Ranges in cells

A cell with two numbers and two points between them holds the bounds that the numbers are. The two
points are looked for from the left, so they are not the ones in the middle if the number in front
ends with a point of its own. The first bound then is the number without this point, and the second
one has to begin with it: `5...10` is read as `5` to `.10`, and `5...` is no range at all, although
`5.` is a number.

* `free_of_parts`: a number has no two points, and gets none as long as it does not end with one.
* `IsEnd.of_append_point`: a number that ends with a point is one without it.
* `restriction?_range`: **when the bounds in a cell are the numbers around the two points**, and
  what is read instead.
* `exists_range_as_literal`: a range that is read as a literal.
-/

namespace BimAudit.Workbook

open Decimal (number? isNumber)
open Decimal.Literal (Parts isLiteralChar parts_of_isNumber)
open Text (isBlank Free)

/-- The bounds from one number to another, either of which may be missing. -/
def range (low high : String) : Ids.Bounds where
  minInclusive := if low = "" then none else some low
  maxInclusive := if high = "" then none else some high

variable {s sign whole fraction power : List Char}

/-- Two points are not found in a number, if it does not end with one. -/
theorem free_of_parts (h : Parts s sign whole fraction power) (hlast : s.getLast? ≠ some '.') :
    Free ['.', '.'] s := by
  rintro ⟨x, y, heq⟩
  have hpoints : x ++ '.' :: '.' :: y = s ++ ['.'] := by simpa using heq
  rcases List.eq_nil_or_concat y with rfl | ⟨y, c, rfl⟩
  · -- the second point is the one put behind the number
    have hs : x ++ ['.'] = s := by
      rw [← List.append_left_inj ['.'], ← hpoints, List.append_assoc]
      rfl
    rw [← hs, List.getLast?_concat] at hlast
    exact hlast rfl
  · -- both are in the number
    have hs : s = x ++ '.' :: ('.' :: y) := by
      have hends : s ++ ['.'] = (x ++ '.' :: ('.' :: y)) ++ [c] := by
        rw [← hpoints]
        simp
      exact (List.append_inj' hends rfl).1
    obtain ⟨fs, -, hfs, -, hrest⟩ := h.point_unique hs
    have hmem : '.' ∈ fs ++ power := by
      rw [← hrest]
      exact List.mem_cons_self
    rcases List.mem_append.1 hmem with hmem | hmem
    · exact Decimal.Literal.not_mem_of_digits hfs hmem
    · exact h.not_mem_power hmem

/-- The text of a bound without blanks: a number, or nothing. -/
structure IsEnd (s : String) : Prop where
  notBlank : ∀ c ∈ s.toList, isBlank c = false
  number : s = "" ∨ (number? s).isSome = true

instance (s : String) : Decidable (IsEnd s) :=
  decidable_of_iff (s.toList.any isBlank = false ∧ (s = "" ∨ (number? s).isSome = true))
    ⟨fun h => ⟨by simpa using h.1, h.2⟩, fun h => ⟨by simpa using h.notBlank, h.number⟩⟩

variable {low high rest : String}

theorem IsEnd.trim (h : IsEnd low) : Text.trim low.toList = low.toList :=
  Text.trim_of_not_isBlank h.notBlank

/-- An end that is given is a number. -/
theorem IsEnd.read (h : IsEnd low) (hne : low ≠ "") :
    (Decimal.Literal.ofChars? low.toList).isSome = true := by
  have hnumber := h.number.resolve_left hne
  rwa [number?, Option.isSome_map, Decimal.Literal.read?, h.trim] at hnumber

theorem IsEnd.parts (h : IsEnd low) (hne : low ≠ "") :
    ∃ sign whole fraction power, Parts low.toList sign whole fraction power :=
  Decimal.Literal.parts_of_ofChars? (h.read hne)

theorem IsEnd.isBound (h : IsEnd low) : isBound low.toList = true := by
  rcases h.number with rfl | hnumber
  · rfl
  · rw [number?, Option.isSome_map] at hnumber
    unfold Workbook.isBound isNumber
    rw [hnumber, Bool.or_true]

theorem IsEnd.isLiteralChar (h : IsEnd low) {c : Char} (hc : c ∈ low.toList) :
    isLiteralChar c = true := by
  have hne : low ≠ "" := by
    rintro rfl
    cases hc
  obtain ⟨sign, whole, fraction, power, hparts⟩ := h.parts hne
  exact hparts.mem hc

/-- An end that does not end with a point has no two points in a row. -/
theorem IsEnd.free (h : IsEnd low) (hlast : low.toList.getLast? ≠ some '.') :
    Free ['.', '.'] low.toList := by
  by_cases hne : low = ""
  · rw [hne]
    decide
  · obtain ⟨sign, whole, fraction, power, hparts⟩ := h.parts hne
    exact free_of_parts hparts hlast

/-- **A number that ends with a point** is a whole number in front of it. -/
theorem IsEnd.of_append_point (h : IsEnd (rest ++ ".")) :
    IsEnd rest ∧ rest ≠ "" ∧ rest.toList.getLast? ≠ some '.' := by
  have hne : rest ++ "." ≠ "" := by simp
  have htext : (rest ++ ".").toList = rest.toList ++ ['.'] := String.toList_append
  obtain ⟨sign, whole, fraction, power, hparts⟩ := h.parts hne
  obtain ⟨fs, rfl, -, hrest, hbehind⟩ := hparts.point_unique htext
  obtain ⟨rfl, rfl⟩ := List.append_eq_nil_iff.1 hbehind.symm
  have hwhole : whole ≠ [] := by
    obtain ⟨-, hdigits⟩ := hparts.isSome_ofChars?_iff.1 (h.read hne)
    simpa using hdigits
  have hblank : ∀ c ∈ rest.toList, isBlank c = false := by
    intro c hc
    refine h.notBlank c ?_
    rw [htext]
    exact List.mem_append_left _ hc
  have hparts' : Parts rest.toList sign whole [] [] :=
    Decimal.Literal.parts_of (by simp [hrest]) hparts.isSign hparts.wholeDigits (.inl rfl)
      (.inl rfl) (.inl hwhole)
  refine ⟨⟨hblank, .inr ?_⟩, ?_, ?_⟩
  · rw [number?, Option.isSome_map, Decimal.Literal.read?, Text.trim_of_not_isBlank hblank]
    exact hparts'.isSome_ofChars?_iff.2 ⟨.inl rfl, .inl hwhole⟩
  · rintro rfl
    exact hwhole (List.append_eq_nil_iff.1 hrest.symm).2
  · intro hlast
    rw [hrest] at hlast
    exact hparts.not_mem_front (List.mem_of_getLast? hlast)

/-- A cell is split at the first two points in a row. -/
theorem splitRange?_append {a : List Char} (h : Free ['.', '.'] a) (b : List Char) :
    splitRange? (a ++ (['.', '.'] ++ b)) = some (a, b) := by
  have hdrop : (a ++ (['.', '.'] ++ b)).drop (a.length + 2) = b := by
    rw [← List.drop_drop, List.drop_left]
    rfl
  unfold splitRange?
  rw [Text.position?_append h, Option.map_some, List.take_left, hdrop]

theorem nonempty?_toList (s : String) : nonempty? s.toList = if s = "" then none else some s := by
  unfold nonempty?
  simp only [List.isEmpty_iff, String.toList_eq_nil_iff, String.ofList_toList]

/-- The bounds around the first two points, if they are numbers. -/
theorem bounds?_append (hfree : Free ['.', '.'] low.toList)
    (hlow : Text.trim low.toList = low.toList) (hhigh : Text.trim high.toList = high.toList) :
    bounds? (low.toList ++ (['.', '.'] ++ high.toList)) =
      if (low.toList.isEmpty && high.toList.isEmpty) || !isBound low.toList || !isBound high.toList
      then none else some (range low high) := by
  unfold bounds?
  simp only [splitRange?_append hfree, Option.bind_eq_bind, Option.bind_some, hlow, hhigh,
    nonempty?_toList]
  rfl

/-- A cell with nothing but the characters of numbers holds bounds or a literal. -/
theorem restriction?_of_isLiteralChar {s : String} (hne : s ≠ "")
    (hblank : ∀ c ∈ s.toList, isBlank c = false) (hmem : ∀ c ∈ s.toList, isLiteralChar c = true) :
    restriction? s = some ((bounds? s.toList).elim (.simple s) .bounds) := by
  have hempty : s.toList.isEmpty = false := by simpa using hne
  have hmark : "re:".toList.isPrefixOf s.toList = false := by
    rw [← Bool.not_eq_true, List.isPrefixOf_iff_prefix]
    intro hbegin
    have hr := hmem 'r' (hbegin.subset (by decide))
    revert hr
    decide
  have hbar : s.toList.contains '|' = false := by
    rw [← Bool.not_eq_true, List.contains_iff_mem]
    intro hc
    have hbar := hmem '|' hc
    revert hbar
    decide
  unfold restriction? restrictionOf?
  rw [Text.trim_of_not_isBlank hblank, hempty, hmark, hbar]
  cases bounds? s.toList with
  | some b => rfl
  | none => simp

theorem toList_range (low high : String) :
    (low ++ ".." ++ high).toList = low.toList ++ (['.', '.'] ++ high.toList) := by
  rw [String.toList_append, String.toList_append, List.append_assoc]
  rfl

theorem forall_mem_range {P : Char → Prop} (hlow : ∀ c ∈ low.toList, P c)
    (hhigh : ∀ c ∈ high.toList, P c) (hpoint : P '.') :
    ∀ c ∈ (low ++ ".." ++ high).toList, P c := by
  intro c hc
  rw [toList_range] at hc
  rcases List.mem_append.1 hc with hc | hc
  · exact hlow c hc
  rcases List.mem_append.1 hc with hc | hc
  · have heq : c = '.' := by simpa using hc
    exact heq ▸ hpoint
  · exact hhigh c hc

/-- Two ends with two points between them are read as bounds if they can be, and literally
otherwise. -/
theorem restriction?_eq (hlow : IsEnd low) (hhigh : IsEnd high) :
    restriction? (low ++ ".." ++ high) = some ((bounds? (low ++ ".." ++ high).toList).elim
      (.simple (low ++ ".." ++ high)) .bounds) :=
  restriction?_of_isLiteralChar (by simp)
    (forall_mem_range hlow.notBlank hhigh.notBlank (by decide))
    (forall_mem_range (fun _ hc => hlow.isLiteralChar hc) (fun _ hc => hhigh.isLiteralChar hc)
      (by decide))

/-- Without a point at the end of the first number the two points are the ones in the middle. -/
theorem restriction?_of_getLast? (hlow : IsEnd low) (hhigh : IsEnd high)
    (hne : low ≠ "" ∨ high ≠ "") (hlast : low.toList.getLast? ≠ some '.') :
    restriction? (low ++ ".." ++ high) = some (.bounds (range low high)) := by
  have hgiven : (low.toList.isEmpty && high.toList.isEmpty) = false := by
    rw [Bool.and_eq_false_iff]
    exact hne.imp (by simpa using ·) (by simpa using ·)
  rw [restriction?_eq hlow hhigh, toList_range,
    bounds?_append (hlow.free hlast) hlow.trim hhigh.trim, hgiven, hlow.isBound, hhigh.isBound]
  rfl

/-- A point at the end of the first number is taken for one of the two, so that the second number
gets one in front. If this makes it no number, the cell is a literal. -/
theorem restriction?_of_append_point (hlow : IsEnd (rest ++ ".")) (hhigh : IsEnd high) :
    restriction? (rest ++ "." ++ ".." ++ high) =
      some (if (number? ("." ++ high)).isSome then .bounds (range rest ("." ++ high))
        else .simple (rest ++ "." ++ ".." ++ high)) := by
  obtain ⟨hrest, hne, hlast⟩ := hlow.of_append_point
  have hmoved : rest ++ "." ++ ".." ++ high = rest ++ ".." ++ ("." ++ high) := by
    simp only [← String.toList_inj, String.toList_append, List.append_assoc]
    rfl
  have hgiven : rest.toList.isEmpty = false := by simpa using hne
  have htrim : Text.trim ("." ++ high).toList = ("." ++ high).toList := by
    refine Text.trim_of_not_isBlank fun c hc => ?_
    rcases List.mem_append.1 (String.toList_append ▸ hc) with hc | hc
    · have heq : c = '.' := by simpa using hc
      exact heq ▸ (by decide)
    · exact hhigh.notBlank c hc
  have hbound : isBound ("." ++ high).toList = (number? ("." ++ high)).isSome := by
    have hsome : ("." ++ high).toList.isEmpty = false := by simp
    rw [isBound, hsome, Bool.false_or, isNumber, number?, Option.isSome_map]
  rw [restriction?_eq hlow hhigh, hmoved, toList_range,
    bounds?_append (hrest.free hlast) hrest.trim htrim, hgiven, hrest.isBound, hbound]
  cases (number? ("." ++ high)).isSome <;> rfl

/-- **The bounds in a cell are the numbers around the two points**, whatever forms these have, if
and only if the first one does not end with a point. If it does, this point is taken off it and put
in front of the second one, and if that makes this no number, the cell is a literal. -/
theorem restriction?_range (hlow : IsEnd low) (hhigh : IsEnd high) (hne : low ≠ "" ∨ high ≠ "") :
    (restriction? (low ++ ".." ++ high) = some (.bounds (range low high)) ↔
        low.toList.getLast? ≠ some '.') ∧
      ∀ rest, low = rest ++ "." → restriction? (low ++ ".." ++ high) =
        some (if (number? ("." ++ high)).isSome then .bounds (range rest ("." ++ high))
          else .simple (low ++ ".." ++ high)) := by
  have hpointed : ∀ rest, low = rest ++ "." → restriction? (low ++ ".." ++ high) =
      some (if (number? ("." ++ high)).isSome then .bounds (range rest ("." ++ high))
        else .simple (low ++ ".." ++ high)) := by
    rintro rest rfl
    exact restriction?_of_append_point hlow hhigh
  refine ⟨⟨fun hread hlast => ?_, restriction?_of_getLast? hlow hhigh hne⟩, hpointed⟩
  obtain ⟨front, hfront⟩ := List.getLast?_eq_some_iff.1 hlast
  have hpoint : low = String.ofList front ++ "." := by
    simp [← String.toList_inj, hfront]
  rw [hpointed _ hpoint] at hread
  split at hread
  · -- the first bound has lost its point
    have hmin := congrArg Ids.Bounds.minInclusive (Ids.Value.bounds.inj (Option.some.inj hread))
    rw [hpoint] at hlow
    have hsome := hlow.of_append_point.2.1
    simp only [range, hpoint, hsome, String.append_eq_empty_iff, false_and, if_false,
      Option.some.injEq] at hmin
    have hlength := congrArg String.length hmin
    simp at hlength
  · cases hread

/-- Every point but the two in the middle belongs to its number, but for one in front of them. -/
theorem restriction?_range_three_points :
    IsEnd "-2.5" ∧ IsEnd ".5" ∧ IsEnd "5." ∧ IsEnd "10" ∧
      restriction? ("-2.5" ++ ".." ++ ".5") = some (.bounds (range "-2.5" ".5")) ∧
      restriction? ("5." ++ ".." ++ "10") = some (.bounds (range "5" ".10")) := by
  have hminus : IsEnd "-2.5" := by decide
  have hhalf : IsEnd ".5" := by decide
  have hfive : IsEnd "5." := by decide
  have hten : IsEnd "10" := by decide
  refine ⟨hminus, hhalf, hfive, hten, ?_, ?_⟩
  · exact (restriction?_range hminus hhalf (by decide)).1.2 (by decide)
  · exact (restriction?_range hfive hten (by decide)).2 "5" (by decide)

/-- **A range that is read as a literal.** There is no other way to read it as a range, since a
point alone is no number. -/
theorem exists_range_as_literal : IsEnd "5." ∧ IsEnd "" ∧ ¬IsEnd "." ∧
    restriction? ("5." ++ ".." ++ "") = some (.simple "5...") ∧
    restriction? ("5." ++ ".." ++ "") ≠ some (.bounds (range "5." "")) := by
  refine ⟨by decide, by decide, by decide, by decide, by decide⟩

end BimAudit.Workbook
