import BimAudit.Text.Blank

/-!
# Trimmed texts

A text is trimmed if trimming leaves it alone. What is trimmed of all blanks is trimmed of the white
space of data formats too, since every such character is a blank.

* `dropEnds_eq_self_iff`: which texts keep their two ends. `dropEnds_dropEnds`: trimmed ones do.
* `trim_eq_self_iff`, `dropEnds_isSpace_of_trimmed`: the same of blanks and of white space.
* `trim_cons_blank`, `trim_append_blanks`: blanks at the ends do not count.
-/

namespace BimAudit.Text

/-! ### Spans -/

theorem ne_of_pred {p : Char → Bool} {a b : Char} (ha : p a = true) (hb : p b = false) : a ≠ b := by
  rintro rfl
  rw [ha] at hb
  cases hb

theorem takeWhile_append_cons {p : Char → Bool} {s : List Char} {c : Char}
    (h : ∀ a ∈ s, p a = true) (hc : p c = false) (r : List Char) :
    (s ++ c :: r).takeWhile p = s := by
  rw [List.takeWhile_append_of_pos h, List.takeWhile_cons, hc]
  exact List.append_nil s

theorem dropWhile_append_cons {p : Char → Bool} {s : List Char} {c : Char}
    (h : ∀ a ∈ s, p a = true) (hc : p c = false) (r : List Char) :
    (s ++ c :: r).dropWhile p = c :: r := by
  rw [List.dropWhile_append_of_pos h, List.dropWhile_cons, hc]
  rfl

theorem dropWhile_append_of_ne_nil {p : Char → Bool} {s : List Char} (h : s.dropWhile p ≠ [])
    (r : List Char) : (s ++ r).dropWhile p = s.dropWhile p ++ r := by
  rw [List.dropWhile_append, if_neg (by simpa using h)]

/-- What is taken ends in front of the first occurrence of a character. -/
theorem takeWhile_ne_append {a : Char} {p : List Char} (h : a ∉ p) (s : List Char) :
    (p ++ a :: s).takeWhile (· ≠ a) = p := by
  apply takeWhile_append_cons
  · intro c hc
    exact decide_eq_true fun heq => h (heq ▸ hc)
  · simp

/-- What is dropped ends in front of the first occurrence of a character. -/
theorem dropWhile_ne_append {a : Char} {p : List Char} (h : a ∉ p) (s : List Char) :
    (p ++ a :: s).dropWhile (· ≠ a) = a :: s := by
  apply dropWhile_append_cons
  · intro c hc
    exact decide_eq_true fun heq => h (heq ▸ hc)
  · simp

/-! ### Both ends -/

/-- Drops some characters at both ends. -/
def dropEnds (p : Char → Bool) (s : List Char) : List Char :=
  ((s.dropWhile p).reverse.dropWhile p).reverse

theorem trim_eq_dropEnds (s : List Char) : trim s = dropEnds isBlank s := rfl

variable {p : Char → Bool} {s : List Char}

/-- Nothing is dropped exactly if the first character is kept. -/
theorem dropWhile_eq_self_iff_head? :
    s.dropWhile p = s ↔ ∀ c, s.head? = some c → p c = false := by
  cases s with
  | nil => simp
  | cons a s =>
    rw [List.dropWhile_cons, List.head?_cons]
    cases ha : p a with
    | false =>
      simp only [Bool.false_eq_true, if_false, true_iff]
      intro c hc
      rw [← Option.some.inj hc, ha]
    | true =>
      simp only [if_true]
      constructor
      · intro h
        have hle := length_dropWhile_le p s
        rw [h, List.length_cons] at hle
        omega
      · intro h
        rw [h a rfl] at ha
        cases ha

/-- To drop characters at both ends leaves no more than to drop them at one. -/
theorem length_dropEnds_le (s : List Char) : (dropEnds p s).length ≤ (s.dropWhile p).length := by
  have h := length_dropWhile_le p (s.dropWhile p).reverse
  rw [List.length_reverse] at h
  rwa [dropEnds, List.length_reverse]

/-- **A text keeps its two ends if these are not dropped.** -/
theorem dropEnds_eq_self_iff : dropEnds p s = s ↔
    (∀ c, s.head? = some c → p c = false) ∧ ∀ c, s.getLast? = some c → p c = false := by
  have hlast : (∀ c, s.getLast? = some c → p c = false) ↔ s.reverse.dropWhile p = s.reverse := by
    rw [dropWhile_eq_self_iff_head?, List.head?_reverse]
  rw [hlast, ← dropWhile_eq_self_iff_head?]
  constructor
  · intro h
    have hstart : s.dropWhile p = s := by
      -- else the text is shorter than before
      apply (List.dropWhile_suffix (l := s) p).eq_of_length
      have hle := length_dropEnds_le (p := p) s
      have hle' := length_dropWhile_le p s
      rw [h] at hle
      omega
    refine ⟨hstart, ?_⟩
    rw [dropEnds, hstart] at h
    have h' := congrArg List.reverse h
    rwa [List.reverse_reverse] at h'
  · rintro ⟨hstart, hend⟩
    rw [dropEnds, hstart, hend, List.reverse_reverse]

/-- What is left begins with a character that is kept. -/
theorem not_of_head?_dropWhile {c : Char} (h : (s.dropWhile p).head? = some c) : p c = false := by
  have hnot := List.head?_dropWhile_not p s
  rw [h] at hnot
  exact hnot

/-- What has lost its two ends keeps those that it has now. -/
theorem dropEnds_dropEnds (p : Char → Bool) (s : List Char) :
    dropEnds p (dropEnds p s) = dropEnds p s := by
  refine dropEnds_eq_self_iff.2 ⟨?_, ?_⟩
  · intro c hc
    -- dropping the end leaves the beginning, so it is still the one in front of which was dropped
    have hprefix : dropEnds p s <+: s.dropWhile p := by
      have hsuffix := List.dropWhile_suffix (l := (s.dropWhile p).reverse) p
      rwa [← List.reverse_prefix, List.reverse_reverse] at hsuffix
    obtain ⟨r, hr⟩ := hprefix
    apply not_of_head?_dropWhile (s := s)
    rw [← hr, List.head?_append, hc]
    rfl
  · intro c hc
    rw [dropEnds, List.getLast?_reverse] at hc
    exact not_of_head?_dropWhile hc

/-- A text that is trimmed once is trimmed for good. -/
theorem trim_trim (s : List Char) : trim (trim s) = trim s := dropEnds_dropEnds isBlank s

theorem strip_strip (s : String) : strip (strip s) = strip s := by
  unfold strip
  rw [String.toList_ofList, trim_trim]

/-- **A text is trimmed** if it neither begins nor ends with a blank. -/
theorem trim_eq_self_iff : trim s = s ↔
    (∀ c, s.head? = some c → isBlank c = false) ∧ ∀ c, s.getLast? = some c → isBlank c = false := by
  rw [trim_eq_dropEnds, dropEnds_eq_self_iff]

theorem trim_of_not_isBlank (h : ∀ c ∈ s, isBlank c = false) : trim s = s :=
  trim_eq_self_iff.2 ⟨fun c hc => h c (List.mem_of_head? hc),
    fun c hc => h c (List.mem_of_getLast? hc)⟩

/-- A text between two characters that are no blanks is trimmed. -/
theorem trim_between {a b : Char} (ha : isBlank a = false) (hb : isBlank b = false)
    (s : List Char) : trim (a :: s ++ [b]) = a :: s ++ [b] := by
  refine trim_eq_self_iff.2 ⟨?_, ?_⟩
  · intro c hc
    rw [List.cons_append, List.head?_cons] at hc
    rw [← Option.some.inj hc, ha]
  · intro c hc
    rw [List.getLast?_append] at hc
    simp only [List.getLast?_singleton, Option.some_or, Option.some.injEq] at hc
    rw [← hc, hb]

/-- What is a space in a document is a blank. -/
theorem isBlank_of_isSpace {c : Char} (h : isSpace c = true) : isBlank c = true := by
  unfold isSpace at h
  simp only [Bool.or_eq_true, decide_eq_true_eq] at h
  rcases h with ((rfl | rfl) | rfl) | rfl <;> decide

/-- What is no blank is no space in a document. -/
theorem not_isSpace_of_not_isBlank {c : Char} (h : isBlank c = false) : isSpace c = false := by
  cases hc : isSpace c with
  | false => rfl
  | true => rw [isBlank_of_isSpace hc] at h; cases h

/-- A text without blanks at its ends has no white space there. -/
theorem dropEnds_isSpace_of_trimmed (h : trim s = s) : dropEnds isSpace s = s := by
  obtain ⟨hhead, hlast⟩ := trim_eq_self_iff.1 h
  exact dropEnds_eq_self_iff.2 ⟨fun c hc => not_isSpace_of_not_isBlank (hhead c hc),
    fun c hc => not_isSpace_of_not_isBlank (hlast c hc)⟩

/-! ### Blanks at the ends -/

/-- What trimming takes away from the end are blanks. -/
theorem exists_trimEnd_append (s : List Char) :
    ∃ blanks, s = trimEnd s ++ blanks ∧ ∀ c ∈ blanks, isBlank c = true := by
  refine ⟨(s.reverse.takeWhile isBlank).reverse, ?_, ?_⟩
  · unfold trimEnd
    rw [← List.reverse_append, List.takeWhile_append_dropWhile, List.reverse_reverse]
  · intro c hc
    exact List.all_eq_true.1 List.all_takeWhile c (List.mem_reverse.1 hc)

variable {blanks : List Char}

/-- Blanks behind a text are trimmed off its end. -/
theorem trimEnd_append_blanks (h : ∀ c ∈ blanks, isBlank c = true) (s : List Char) :
    trimEnd (s ++ blanks) = trimEnd s := by
  unfold trimEnd
  rw [List.reverse_append, List.dropWhile_append_of_pos fun c hc => h c (List.mem_reverse.1 hc)]

theorem trim_cons_blank {c : Char} (h : isBlank c = true) (s : List Char) :
    trim (c :: s) = trim s := by
  unfold trim trimStart
  rw [List.dropWhile_cons_of_pos h]

/-- Blanks behind a text are trimmed off. -/
theorem trim_append_blanks (h : ∀ c ∈ blanks, isBlank c = true) (s : List Char) :
    trim (s ++ blanks) = trim s := by
  induction s with
  | nil =>
    rw [List.nil_append, ← List.append_nil blanks]
    unfold trim trimStart
    rw [List.dropWhile_append_of_pos h]
  | cons c s ih =>
    by_cases hc : isBlank c = true
    · rw [List.cons_append, trim_cons_blank hc, trim_cons_blank hc, ih]
    · -- the text starts here, so only its end is trimmed
      unfold trim trimStart
      rw [List.cons_append, List.dropWhile_cons_of_neg hc, List.dropWhile_cons_of_neg hc,
        ← List.cons_append, trimEnd_append_blanks h]

/-- To trim the end first makes no difference. -/
theorem trim_trimEnd (s : List Char) : trim (trimEnd s) = trim s := by
  obtain ⟨blanks, heq, hblanks⟩ := exists_trimEnd_append s
  have hends := trim_append_blanks hblanks (trimEnd s)
  rw [← heq] at hends
  exact hends.symm

end BimAudit.Text
