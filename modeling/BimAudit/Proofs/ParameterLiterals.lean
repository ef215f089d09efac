import BimAudit.Proofs.ParameterTexts
import BimAudit.Proofs.RecordTexts

/-!
# The literals of a parameter text are those of its parameters

The literals of a text are found by its apostrophes alone, and its parameters by quotes, parentheses
and commas. The two agree: no literal reaches over a comma that separates two parameters, so the
literals of the parameters, one after the other, are the literals of the whole text.

* `splitLiteral_eq_some_iff`, `splitLiteral_eq_none_iff`: where a literal ends.
* `literals_cases`: a text is empty, starts with another character than an apostrophe, with a
  literal or with one that has no end; what holds of texts may be proved case by case.
* `literals_eq_flatMap`: **the literals of a text are those of its parameters.**
-/

namespace BimAudit.Step

open Text (isBlank trim trimStart trimEnd exists_trimEnd_append)

/-! ### Inside of a literal -/

variable {s body rest : List Char}

/-- A literal ends at the first apostrophe that is not doubled. -/
theorem splitLiteral_doubled (hbody : isDoubled body = true) (hrest : rest.head? ≠ some '\'') :
    splitLiteral (body ++ '\'' :: rest) = some (body, rest) := by
  fun_induction isDoubled body with
  | case1 =>
    cases rest with
    | nil => rfl
    | cons c t =>
      have hc : c ≠ '\'' := fun hc => hrest (by rw [hc]; rfl)
      simp [splitLiteral, hc]
  | case2 r ih =>
    simp [splitLiteral, ih hbody]
  | case3 c r _ ih =>
    rw [Bool.and_eq_true, decide_eq_true_eq] at hbody
    simp [splitLiteral, hbody.1, ih hbody.2]

/-- A literal ends at the first apostrophe that is not one of two. -/
theorem splitLiteral_eq_some_iff : splitLiteral s = some (body, rest) ↔
    s = body ++ '\'' :: rest ∧ isDoubled body = true ∧ rest.head? ≠ some '\'' := by
  constructor
  · intro h
    fun_induction splitLiteral s generalizing body rest with
    | case1 => cases h
    | case2 r ih =>
      obtain ⟨p, hp, heq⟩ := Option.map_eq_some_iff.1 h
      cases heq
      obtain ⟨rfl, hbody, hrest⟩ := ih hp
      exact ⟨rfl, by rw [isDoubled, hbody], hrest⟩
    | case3 r hnext =>
      cases h
      refine ⟨rfl, rfl, ?_⟩
      intro hhead
      obtain ⟨t, rfl⟩ := List.head?_eq_some_iff.1 hhead
      exact hnext t rfl rfl
    | case4 c r hnext hc ih =>
      obtain ⟨p, hp, heq⟩ := Option.map_eq_some_iff.1 h
      cases heq
      obtain ⟨rfl, hbody, hrest⟩ := ih hp
      exact ⟨rfl, by simp [isDoubled, hc, hbody], hrest⟩
  · rintro ⟨rfl, hbody, hrest⟩
    exact splitLiteral_doubled hbody hrest

/-- A literal has no end if all apostrophes behind its first one come two in a row. -/
theorem splitLiteral_eq_none_iff : splitLiteral s = none ↔ isDoubled s = true := by
  fun_induction splitLiteral s with
  | case1 => simp [isDoubled]
  | case2 r ih => rw [Option.map_eq_none_iff, ih, isDoubled]
  | case3 r hnext =>
    have hnot : isDoubled ('\'' :: r) = false := by
      cases r with
      | nil => rfl
      | cons c t =>
        have hc : c ≠ '\'' := fun hc => hnext t rfl (by rw [hc])
        simp [isDoubled, hc]
    simp [hnot]
  | case4 c r hnext hc ih =>
    rw [Option.map_eq_none_iff, ih]
    simp [isDoubled, hc]

/-! ### The literals of a text -/

/-- **The search for literals** goes on behind each literal, and ends where there is none or one
that is not closed. -/
theorem literals_eq (s : List Char) : literals s = match s.dropWhile (· ≠ '\'') with
    | [] => []
    | _ :: r =>
      match splitLiteral r with
      | none => []
      | some (body, rest) => decode body :: literals rest := by
  rw [literals]
  split
  · next h => rw [h]
  · next c r h =>
    rw [h]
    simp only
    split
    · next hr => rw [hr]
    · next body rest hr => rw [hr]

theorem literals_nil : literals [] = [] := literals_eq []

/-- The search passes over everything but apostrophes. -/
theorem literals_cons {c : Char} (h : c ≠ '\'') (s : List Char) :
    literals (c :: s) = literals s := by
  rw [literals_eq, literals_eq s, List.dropWhile_cons, if_pos (decide_eq_true h)]

/-- Without an apostrophe there is no literal. -/
theorem literals_of_not_mem (h : '\'' ∉ s) : literals s = [] := by
  induction s with
  | nil => exact literals_nil
  | cons c s ih =>
    rw [List.mem_cons, not_or] at h
    rw [literals_cons (Ne.symm h.1), ih h.2]

theorem literals_apostrophe (s : List Char) : literals ('\'' :: s) = match splitLiteral s with
    | none => []
    | some (body, rest) => decode body :: literals rest := literals_eq ('\'' :: s)

theorem literals_unclosed (h : isDoubled s = true) : literals ('\'' :: s) = [] := by
  rw [literals_apostrophe, splitLiteral_eq_none_iff.2 h]

theorem literals_literal (hbody : isDoubled body = true) (hrest : rest.head? ≠ some '\'') :
    literals ('\'' :: (body ++ '\'' :: rest)) = decode body :: literals rest := by
  rw [literals_apostrophe, splitLiteral_doubled hbody hrest]

/-- **What may be proved of a text case by case:** the text is empty, starts with another character
than an apostrophe, with a literal without an end, or with a whole literal. -/
theorem literals_cases {P : List Char → Prop} (nil : P [])
    (cons : ∀ c s, c ≠ '\'' → P s → P (c :: s))
    (unclosed : ∀ s, isDoubled s = true → P ('\'' :: s))
    (literal : ∀ body rest, isDoubled body = true → rest.head? ≠ some '\'' → P rest →
      P ('\'' :: (body ++ '\'' :: rest))) (s : List Char) : P s := by
  -- the rest behind a literal is no tail of the text, so the induction is on the length
  induction hn : s.length using Nat.strongRecOn generalizing s with
  | ind n ih =>
    subst hn
    cases s with
    | nil => exact nil
    | cons c s =>
      by_cases hc : c = '\''
      · subst hc
        cases hsplit : splitLiteral s with
        | none => exact unclosed s (splitLiteral_eq_none_iff.1 hsplit)
        | some p =>
          obtain ⟨body, rest⟩ := p
          obtain ⟨rfl, hbody, hrest⟩ := splitLiteral_eq_some_iff.1 hsplit
          refine literal body rest hbody hrest (ih rest.length ?_ rest rfl)
          simp only [List.length_cons, List.length_append]
          omega
      · exact cons c s hc (ih s.length (by simp) s rfl)

/-! ### Blanks at the ends -/

/-- What comes behind the last apostrophe makes no difference. -/
theorem literals_append_of_not_mem {t : List Char} (h : '\'' ∉ t) (s : List Char) :
    literals (s ++ t) = literals s := by
  induction s using literals_cases with
  | nil =>
    rw [List.nil_append, literals_of_not_mem h, literals_nil]
  | cons c s hc ih => rw [List.cons_append, literals_cons hc, literals_cons hc, ih]
  | unclosed s hs =>
    rw [List.cons_append, literals_unclosed hs,
      literals_unclosed (isDoubled_append hs (isDoubled_of_not_mem h))]
  | literal body rest hbody hrest ih =>
    have hrest' : (rest ++ t).head? ≠ some '\'' := by
      rw [List.head?_append]
      cases hhead : rest.head? with
      | none => exact fun ht => h (List.mem_of_head? ht)
      | some c => rwa [hhead] at hrest
    rw [List.cons_append, List.append_assoc, List.cons_append, literals_literal hbody hrest',
      literals_literal hbody hrest, ih]

theorem apostrophe_not_mem_of_blank {t : List Char} (h : ∀ c ∈ t, isBlank c = true) : '\'' ∉ t :=
  fun hmem => absurd (h _ hmem) (by decide)

/-- Blanks at the ends make no difference. -/
theorem literals_trim (s : List Char) : literals (trim s) = literals s := by
  have hstart : literals (trimStart s) = literals s := by
    unfold trimStart
    induction s with
    | nil => rfl
    | cons c s ih =>
      rw [List.dropWhile_cons]
      split
      · next hc =>
        have hne : c ≠ '\'' := by
          rintro rfl
          exact absurd hc (by decide)
        rw [ih, literals_cons hne]
      · rfl
  obtain ⟨blanks, heq, hblanks⟩ := exists_trimEnd_append (trimStart s)
  rw [← hstart, heq, literals_append_of_not_mem (apostrophe_not_mem_of_blank hblanks)]
  rfl

/-! ### The literals of the parameters -/

/-- The first piece is empty or begins as the text does. -/
theorem exists_pieces_eq (n : Nesting) (s : List Char) :
    ∃ p ps, pieces n s = p :: ps ∧ (p = [] ∨ p.head? = s.head?) := by
  cases s with
  | nil => exact ⟨[], [], rfl, .inl rfl⟩
  | cons c r =>
    rw [pieces]
    split
    · exact ⟨[], pieces n r, rfl, .inl rfl⟩
    · cases pieces (n.next c) r with
      | nil => exact ⟨[c], [], rfl, .inr rfl⟩
      | cons p ps => exact ⟨c :: p, ps, rfl, .inr rfl⟩

/-- At every depth the pieces of a text have its literals. -/
theorem flatMap_literals_pieces (s : List Char) (d : Int) :
    (pieces ⟨d, false⟩ s).flatMap literals = literals s := by
  induction s using literals_cases generalizing d with
  | nil => rw [pieces, List.flatMap_singleton]
  | cons c s hc ih =>
    obtain ⟨d', hnext⟩ : ∃ d', Nesting.next ⟨d, false⟩ c = ⟨d', false⟩ := by
      unfold Nesting.next
      rw [if_neg hc]
      simp only [Bool.false_eq_true, if_false]
      split
      · exact ⟨d + 1, rfl⟩
      split
      · exact ⟨d - 1, rfl⟩
      · exact ⟨d, rfl⟩
    rw [pieces, literals_cons hc]
    split
    · rw [List.flatMap_cons, literals_nil, List.nil_append, ih]
    · obtain ⟨p, ps, hps, -⟩ := exists_pieces_eq ⟨d', false⟩ s
      have hs := ih d'
      rw [hps] at hs
      rw [hnext, hps, pushFront, List.flatMap_cons, literals_cons hc, ← hs, List.flatMap_cons]
  | unclosed s hs =>
    have hpiece := pieces_doubled hs d []
    rw [List.append_nil, pieces, foldr_pushFront_cons, List.append_nil] at hpiece
    rw [pieces_apostrophe, Bool.not_false, hpiece, pushFront, List.flatMap_singleton]
  | literal body rest hbody hrest ih =>
    obtain ⟨p, ps, hps, hhead⟩ := exists_pieces_eq ⟨d, false⟩ rest
    have hp : p.head? ≠ some '\'' := by
      rcases hhead with rfl | hhead
      · simp
      · rwa [hhead]
    have hs := ih d
    rw [hps, List.flatMap_cons] at hs
    rw [pieces_apostrophe, Bool.not_false, pieces_doubled hbody, pieces_apostrophe, Bool.not_true,
      hps, pushFront, foldr_pushFront_cons, pushFront, List.flatMap_cons,
      literals_literal hbody hp, literals_literal hbody hrest, ← hs, List.cons_append]

/-- **The literals of a text are those of its parameters**, one parameter after the other. -/
theorem literals_eq_flatMap (s : List Char) :
    literals s = (splitParameters s).flatMap literals := by
  have htrim : ((pieces {} s).map trim).flatMap literals = literals s := by
    rw [List.flatMap_map, ← flatMap_literals_pieces s 0]
    congr 1
    funext p
    exact literals_trim p
  unfold splitParameters
  split
  · next h =>
    rw [h] at htrim
    rw [← htrim, List.flatMap_singleton, literals_nil]
    rfl
  · exact htrim.symm

end BimAudit.Step
