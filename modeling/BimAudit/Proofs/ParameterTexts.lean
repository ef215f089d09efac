import BimAudit.Proofs.EncodedStrings
import BimAudit.Proofs.TrimmedText
import BimAudit.Step.Printer

/-!
# Parameter texts are split where they were joined

A text in which quotes and parentheses are closed leaves the splitter where it was: no comma of it
separates two parameters, and the splitter reads on at the same depth outside of literals.

* `Passes`: the text is such, at whatever depth it stands.
* `isDoubled`: what may stand inside a literal. `isDoubled_encode`: encoded strings may.
* `passes_literal`, `passes_parentheses`: quotes and parentheses make such texts of others.
* `splitParameters_commaSeparated`: **parameters that were joined by commas are found again.**
-/

namespace BimAudit.Step

/-- Characters are put in front of the first piece. -/
theorem foldr_pushFront_cons (p q : List Char) (ps : List (List Char)) :
    p.foldr pushFront (q :: ps) = (p ++ q) :: ps := by
  induction p with
  | nil => rfl
  | cons c p ih =>
    rw [List.foldr_cons, ih]
    rfl

/-- The text goes through the splitter as one piece, at every depth. -/
def Passes (p : List Char) : Prop :=
  ∀ (d : Nat) (r : List Char), pieces ⟨d, false⟩ (p ++ r) = p.foldr pushFront (pieces ⟨d, false⟩ r)

/-- The text goes through the splitter as a part of a literal. -/
def PassesQuoted (p : List Char) : Prop :=
  ∀ (d : Nat) (r : List Char), pieces ⟨d, true⟩ (p ++ r) = p.foldr pushFront (pieces ⟨d, true⟩ r)

variable {p q : List Char}

theorem Passes.append (hp : Passes p) (hq : Passes q) : Passes (p ++ q) := by
  intro d r
  rw [List.append_assoc, hp, hq, List.foldr_append]

/-! ### Plain characters -/

/-- A character that means nothing to the splitter. -/
def isPlain (c : Char) : Bool := c ≠ '\'' && c ≠ '(' && c ≠ ')' && c ≠ ','

/-- A plain character is put in front of the piece that follows. -/
theorem pieces_of_isPlain {c : Char} (h : isPlain c = true) (d : Nat) (r : List Char) :
    pieces ⟨d, false⟩ (c :: r) = pushFront c (pieces ⟨d, false⟩ r) := by
  unfold isPlain at h
  simp only [ne_eq, decide_not, Bool.and_eq_true, Bool.not_eq_true', decide_eq_false_iff_not] at h
  obtain ⟨⟨⟨hquote, hopen⟩, hclose⟩, hcomma⟩ := h
  rw [pieces]
  simp [Nesting.splits, Nesting.next, hquote, hopen, hclose, hcomma]

/-- Plain characters pass. -/
theorem passes_of_isPlain (h : ∀ c ∈ p, isPlain c = true) : Passes p := by
  intro d r
  induction p with
  | nil => rfl
  | cons c p ih =>
    rw [List.cons_append, pieces_of_isPlain (h c List.mem_cons_self),
      ih fun c hc => h c (List.mem_cons_of_mem _ hc)]
    rfl

theorem isPlain_of_isWordChar {c : Char} (h : Text.isWordChar c = true) : isPlain c = true := by
  unfold isPlain
  simp only [ne_eq, decide_not, Bool.and_eq_true, Bool.not_eq_true', decide_eq_false_iff_not]
  refine ⟨⟨⟨?_, ?_⟩, ?_⟩, ?_⟩ <;>
  · rintro rfl
    revert h
    decide

/-! ### Literals -/

/-- Apostrophes come only two in a row. -/
def isDoubled : List Char → Bool
  | [] => true
  | '\'' :: '\'' :: r => isDoubled r
  | c :: r => c ≠ '\'' && isDoubled r

/-- Texts with doubled apostrophes are one when put together. -/
theorem isDoubled_append (hp : isDoubled p = true) (hq : isDoubled q = true) :
    isDoubled (p ++ q) = true := by
  fun_induction isDoubled p with
  | case1 => exact hq
  | case2 r ih => simp [isDoubled, ih hp]
  | case3 c r _ ih =>
    rw [Bool.and_eq_true, decide_eq_true_eq] at hp
    simp [isDoubled, hp.1, ih hp.2]

theorem isDoubled_of_not_mem (h : '\'' ∉ p) : isDoubled p = true := by
  induction p with
  | nil => rfl
  | cons c r ih =>
    rw [List.mem_cons, not_or] at h
    simp [isDoubled, Ne.symm h.1, ih h.2]

theorem ne_apostrophe_of_mem_hexWritten {width n : Nat} {c : Char}
    (h : c ∈ Text.hexWritten width n) : c ≠ '\'' := by
  rintro rfl
  have := Text.isWordChar_of_mem_hexWritten h
  revert this
  decide

/-- Apostrophes are doubled, and no other character is written with any. -/
theorem isDoubled_encodeChar (c : Char) : isDoubled (encodeChar c) = true := by
  have hdigits : ∀ width, '\'' ∉ Text.hexWritten width c.toNat := fun _ hmem =>
    ne_apostrophe_of_mem_hexWritten hmem rfl
  unfold encodeChar
  split
  · rfl
  split
  · rfl
  split
  · next hquote _ _ => exact isDoubled_of_not_mem (by simpa using Ne.symm hquote)
  split
  · exact isDoubled_of_not_mem (by simp [hdigits])
  · exact isDoubled_of_not_mem (by simp [hdigits])

/-- **In an encoded string apostrophes are doubled.** -/
theorem isDoubled_encode (s : List Char) : isDoubled (encode s) = true := by
  induction s with
  | nil => rfl
  | cons c s ih =>
    rw [encode, List.flatMap_cons]
    exact isDoubled_append (isDoubled_encodeChar c) ih

/-- Inside of a literal every character but the apostrophe is plain. -/
theorem pieces_quoted {c : Char} (h : c ≠ '\'') (d : Int) (r : List Char) :
    pieces ⟨d, true⟩ (c :: r) = pushFront c (pieces ⟨d, true⟩ r) := by
  rw [pieces]
  simp [Nesting.splits, Nesting.next, h]

/-- An apostrophe leaves a literal, and enters one from outside. -/
theorem pieces_apostrophe (d : Int) (b : Bool) (r : List Char) :
    pieces ⟨d, b⟩ ('\'' :: r) = pushFront '\'' (pieces ⟨d, !b⟩ r) := by
  rw [pieces]
  simp [Nesting.splits, Nesting.next]

/-- Inside of a literal the text goes through the splitter as one piece: the first of two
apostrophes leaves the literal, and the second one enters it again. -/
theorem pieces_doubled (h : isDoubled p = true) (d : Int) (r : List Char) :
    pieces ⟨d, true⟩ (p ++ r) = p.foldr pushFront (pieces ⟨d, true⟩ r) := by
  fun_induction isDoubled p with
  | case1 => rfl
  | case2 t ih =>
    rw [List.cons_append, List.cons_append, pieces_apostrophe, Bool.not_true, pieces_apostrophe,
      Bool.not_false, ih h]
    rfl
  | case3 c t _ ih =>
    rw [Bool.and_eq_true, decide_eq_true_eq] at h
    rw [List.cons_append, pieces_quoted h.1, ih h.2]
    rfl

theorem passesQuoted_of_isDoubled (h : isDoubled p = true) : PassesQuoted p :=
  fun d r => pieces_doubled h d r

/-- **A literal passes, whatever it says.** -/
theorem passes_literal (hp : PassesQuoted p) : Passes ('\'' :: p ++ ['\'']) := by
  intro d r
  rw [List.append_assoc, List.cons_append, pieces_apostrophe, Bool.not_false, hp,
    List.singleton_append, pieces_apostrophe, Bool.not_true, List.foldr_append]
  rfl

/-! ### Parentheses -/

/-- A text passes if it stands inside of parentheses. -/
def PassesInside (p : List Char) : Prop :=
  ∀ (d : Nat) (r : List Char),
    pieces ⟨(d + 1 : Nat), false⟩ (p ++ r) = p.foldr pushFront (pieces ⟨(d + 1 : Nat), false⟩ r)

theorem Passes.inside (h : Passes p) : PassesInside p := fun d r => h (d + 1) r

/-- **So does a text in parentheses.** -/
theorem passes_parentheses (hp : PassesInside p) : Passes ('(' :: p ++ [')']) := by
  intro d r
  have hopen : ∀ t, pieces ⟨d, false⟩ ('(' :: t)
      = pushFront '(' (pieces ⟨(d + 1 : Nat), false⟩ t) := by
    intro t
    rw [pieces]
    simp [Nesting.splits, Nesting.next]
  have hclose : pieces ⟨(d + 1 : Nat), false⟩ (')' :: r) = pushFront ')' (pieces ⟨d, false⟩ r) := by
    rw [pieces]
    simp [Nesting.splits, Nesting.next]
  rw [List.append_assoc, List.cons_append, hopen, hp, List.singleton_append, hclose,
    List.foldr_append]
  rfl

/-- Inside of parentheses a comma separates nothing. -/
theorem passesInside_commaSeparated {ps : List (List Char)} (h : ∀ p ∈ ps, Passes p) :
    PassesInside (commaSeparated ps) := by
  induction ps with
  | nil =>
    intro d r
    rfl
  | cons p ps ih =>
    have hp := (h p List.mem_cons_self).inside
    cases ps with
    | nil => exact hp
    | cons q ps =>
      have hps := ih fun q hq => h q (List.mem_cons_of_mem _ hq)
      intro d r
      have hcomma : ∀ t, pieces ⟨(d + 1 : Nat), false⟩ (',' :: t)
          = pushFront ',' (pieces ⟨(d + 1 : Nat), false⟩ t) := by
        intro t
        rw [pieces]
        -- the splitter is not at depth zero
        have hd : ¬ ((d : Int) + 1 = 0) := by omega
        simp [Nesting.splits, Nesting.next, hd]
      rw [commaSeparated, List.append_assoc, hp, List.cons_append, hcomma, hps, List.foldr_append]
      · rfl
      · exact List.cons_ne_nil _ _

/-! ### Splitting -/

/-- **Parameters are split at the commas between them.** -/
theorem pieces_commaSeparated {p : List Char} {ps : List (List Char)}
    (h : ∀ q ∈ p :: ps, Passes q) : pieces {} (commaSeparated (p :: ps)) = p :: ps := by
  -- outside of parentheses the comma ends the piece of `p`, and the rest starts anew
  induction ps generalizing p with
  | nil =>
    have hp := h p List.mem_cons_self 0 []
    rw [List.append_nil] at hp
    rw [commaSeparated]
    refine hp.trans ?_
    rw [pieces, foldr_pushFront_cons, List.append_nil]
  | cons q ps ih =>
    have hrest := ih fun q hq => h q (List.mem_cons_of_mem _ hq)
    have hcomma : ∀ t, pieces {} (',' :: t) = [] :: pieces {} t := by
      intro t
      rw [pieces]
      rfl
    rw [commaSeparated]
    · refine (h p List.mem_cons_self 0 _).trans ?_
      refine (congrArg (p.foldr pushFront) (hcomma _)).trans ?_
      rw [foldr_pushFront_cons, List.append_nil, hrest]
    · exact List.cons_ne_nil _ _

/-- **Parameters that were joined by commas are found again**, if they are neither empty nor have
blanks at their ends. -/
theorem splitParameters_commaSeparated {ps : List (List Char)} (hpass : ∀ p ∈ ps, Passes p)
    (hne : ∀ p ∈ ps, p ≠ []) (htrim : ∀ p ∈ ps, Text.trim p = p) :
    splitParameters (commaSeparated ps) = ps := by
  cases ps with
  | nil => decide
  | cons p ps =>
    have hmap : (p :: ps).map Text.trim = p :: ps := by
      rw [List.map_congr_left htrim, List.map_id']
    unfold splitParameters
    rw [pieces_commaSeparated hpass, hmap]
    split
    · -- a single empty piece would be no parameter
      next heq =>
      cases heq
      exact absurd rfl (hne [] List.mem_cons_self)
    · rfl

end BimAudit.Step
