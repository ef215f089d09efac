import Mathlib.Algebra.Group.Nat.Defs
import BimAudit.Decimal.Literal
import BimAudit.Text.CodePoint

/-!
# Numerals are read back

Decimal and base-sixteen numerals are read as the numbers that they were written from, and a
character is known by its code. Of number literals only the characters matter here: they are digits,
points, signs and the mark of the exponent.

* `wordDigits?_toDigits`, `hex?_hexWritten`, `charOfCode?_toNat`: reading undoes writing.
* `Parts.mem`, `Parts.head`, `Parts.tail`: the characters of a number literal, its first one, and
  what cannot follow a point in front.
-/

namespace BimAudit.Text

theorem isDigit_eq (c : Char) : isDigit c = c.isDigit := by
  unfold isDigit Char.isDigit
  rfl

/-- The characters of words by their codes. -/
theorem isWordChar_iff {c : Char} : isWordChar c = true ↔
    65 ≤ c.toNat ∧ c.toNat ≤ 90 ∨ 97 ≤ c.toNat ∧ c.toNat ≤ 122 ∨ 48 ≤ c.toNat ∧ c.toNat ≤ 57 ∨
      c.toNat = 95 := by
  have hunderscore : c = '_' ↔ c.toNat = 95 := Char.toNat_inj.symm
  delta isWordChar Char.isAlphanum Char.isAlpha Char.isUpper Char.isLower Char.isDigit
  simp only [Bool.or_eq_true, Bool.and_eq_true, decide_eq_true_eq, UInt32.le_iff_toNat_le,
    ge_iff_le, hunderscore, or_assoc]
  exact Iff.rfl

theorem decimalValue_eq (n : Nat) (ds : List Char) :
    decimalValue n ds = Nat.ofDigitChars 10 ds n := by
  rw [Nat.ofDigitChars_eq_foldl]
  rfl

theorem isDigit_of_mem_toDigits {n : Nat} {c : Char} (h : c ∈ Nat.toDigits 10 n) :
    isDigit c = true := by
  rw [isDigit_eq]
  exact Nat.isDigit_of_mem_toDigits (by decide) (by decide) h

/-- **A number that is written is read back.** -/
theorem digits?_toDigits (n : Nat) : digits? (Nat.toDigits 10 n) = some n := by
  have hall : (Nat.toDigits 10 n).all isDigit = true :=
    List.all_eq_true.2 fun _ hc => isDigit_of_mem_toDigits hc
  unfold digits?
  rw [if_pos ⟨Nat.toDigits_ne_nil, hall⟩, decimalValue_eq, Nat.ofDigitChars_ten_toDigits]

/-- **A 64-bit word is read back from its digits.** -/
theorem wordDigits?_toDigits {n : Nat} (h : n < wordLimit) :
    wordDigits? (Nat.toDigits 10 n) = some n := by
  unfold wordDigits?
  rw [digits?_toDigits]
  simp [h]

/-- Without a plus sign a word is a run of digits. -/
theorem word?_of_head_ne {s : List Char} (h : s.head? ≠ some '+') : word? s = wordDigits? s := by
  unfold word?
  split
  · exact absurd rfl h
  · rfl

/-- A word that is written is read back. -/
theorem word?_toDigits {n : Nat} (h : n < wordLimit) : word? (Nat.toDigits 10 n) = some n := by
  rw [word?_of_head_ne, wordDigits?_toDigits h]
  intro hplus
  have := isDigit_of_mem_toDigits (List.mem_of_head? hplus)
  revert this
  decide

/-! ### Base sixteen -/

theorem hexDigit?_hexChar : ∀ d : Fin 16, hexDigit? (hexChar d) = some d.val := by decide

theorem isWordChar_hexChar : ∀ d : Fin 16, isWordChar (hexChar d) = true := by decide

/-- A number is written with as many digits as there is width. -/
theorem length_hexWritten (width n : Nat) : (hexWritten width n).length = width := by
  induction width generalizing n with
  | zero => rfl
  | succ width ih => rw [hexWritten, List.length_append, ih]; rfl

theorem isWordChar_of_mem_hexWritten {width n : Nat} {c : Char} (h : c ∈ hexWritten width n) :
    isWordChar c = true := by
  induction width generalizing n with
  | zero => cases h
  | succ width ih =>
    rw [hexWritten, List.mem_append, List.mem_singleton] at h
    rcases h with h | rfl
    · exact ih h
    · exact isWordChar_hexChar ⟨n % 16, Nat.mod_lt _ (by decide)⟩

/-- Digits in base sixteen are read on top of the number in front of them. -/
theorem foldlM_hexWritten (width : Nat) {n : Nat} (h : n < 16 ^ width) (m : Nat) :
    (hexWritten width n).foldlM (fun n c => (hexDigit? c).map (16 * n + ·)) m
      = some (16 ^ width * m + n) := by
  induction width generalizing n with
  | zero =>
    have hn : n = 0 := by omega
    simp [hexWritten, hn]
  | succ width ih =>
    have hdiv : n / 16 < 16 ^ width := by
      rw [Nat.div_lt_iff_lt_mul (by decide), ← Nat.pow_succ]
      exact h
    have hdigit := hexDigit?_hexChar ⟨n % 16, Nat.mod_lt _ (by decide)⟩
    have hval : 16 * (16 ^ width * m + n / 16) + n % 16 = 16 ^ (width + 1) * m + n := by
      rw [Nat.pow_succ', Nat.mul_assoc]
      omega
    -- the last digit stands for the remainder, those in front for the quotient
    rw [hexWritten, List.foldlM_append, ih hdiv]
    simp only [Option.bind_eq_bind, Option.bind_some, List.foldlM_cons, List.foldlM_nil, hdigit,
      Option.map_some, hval]
    rfl

/-- Without a plus sign a number in base sixteen is a run of digits. -/
theorem hex?_of_head_ne {s : List Char} (h : s.head? ≠ some '+') : hex? s = hexDigits? s := by
  unfold hex?
  split
  · exact absurd rfl h
  · rfl

/-- **A number is read back from its digits in base sixteen.** -/
theorem hex?_hexWritten {width n : Nat} (hw : 0 < width) (h : n < 16 ^ width) :
    hex? (hexWritten width n) = some n := by
  have hne : hexWritten width n ≠ [] := by
    intro hnil
    have hlen := length_hexWritten width n
    rw [hnil, List.length_nil] at hlen
    omega
  have hplus : (hexWritten width n).head? ≠ some '+' := by
    intro hplus
    have := isWordChar_of_mem_hexWritten (List.mem_of_head? hplus)
    revert this
    decide
  have hdigits : hexDigits? (hexWritten width n) = some n := by
    rw [hexDigits?, if_neg hne, foldlM_hexWritten width h, Nat.mul_zero, Nat.zero_add]
  rw [hex?_of_head_ne hplus, hdigits]

/-- A character is known by its code. -/
theorem charOfCode?_toNat (c : Char) : charOfCode? c.toNat = some c := by
  have h : c.toNat.isValidChar := c.valid
  unfold charOfCode?
  rw [dif_pos h]
  rfl

end BimAudit.Text

namespace BimAudit.Decimal

open Text (isDigit)

namespace Literal

/-- No sign, or one. -/
def IsSign (s : List Char) : Prop := s = [] ∨ s = ['+'] ∨ s = ['-']

/-- How a number literal looks: a sign, digits, a point with digits, and an exponent, where digits
or a point have to be there. -/
structure Parts (s sign whole fraction power : List Char) : Prop where
  eq : s = sign ++ (whole ++ (fraction ++ power))
  isSign : IsSign sign
  wholeDigits : ∀ c ∈ whole, isDigit c = true
  fractionDigits : fraction = [] ∨ ∃ ds, fraction = '.' :: ds ∧ ∀ c ∈ ds, isDigit c = true
  powerDigits : power = [] ∨ ∃ c sign ds, power = c :: (sign ++ ds) ∧ (c = 'e' ∨ c = 'E') ∧
    IsSign sign ∧ ∀ c ∈ ds, isDigit c = true
  nonempty : whole ≠ [] ∨ fraction ≠ []

/-- A text is a sign, or none, and the rest. -/
theorem splitSign_eq (s : List Char) : ∃ sign, s = sign ++ (splitSign s).2 ∧ IsSign sign := by
  unfold splitSign
  split
  · exact ⟨['-'], rfl, .inr (.inr rfl)⟩
  · exact ⟨['+'], rfl, .inr (.inl rfl)⟩
  · exact ⟨[], rfl, .inl rfl⟩

theorem isDigit_of_mem_takeWhile {s : List Char} {c : Char} (h : c ∈ s.takeWhile isDigit) :
    isDigit c = true :=
  List.all_eq_true.1 List.all_takeWhile c h

/-- A text is a point with digits, or neither, and the rest. -/
theorem splitFraction_eq (s : List Char) :
    ∃ fraction, s = fraction ++ (splitFraction s).2 ∧
      (fraction = [] ∨ ∃ ds, fraction = '.' :: ds ∧ ∀ c ∈ ds, isDigit c = true) ∧
      ((splitFraction s).1 ≠ none → fraction ≠ []) := by
  unfold splitFraction
  split
  · next r =>
    refine ⟨'.' :: (splitDigits r).1, ?_, .inr ⟨_, rfl, ?_⟩, by simp⟩
    · simp [splitDigits, List.takeWhile_append_dropWhile]
    · intro c hc
      exact isDigit_of_mem_takeWhile hc
  · exact ⟨[], rfl, .inl rfl, by simp⟩

/-- An exponent is a mark, a sign or none, and digits. -/
theorem exponentPart?_eq {s : List Char} {power : Option Int} (h : exponentPart? s = some power) :
    s = [] ∨ ∃ c sign ds, s = c :: (sign ++ ds) ∧ (c = 'e' ∨ c = 'E') ∧ IsSign sign ∧
      ∀ c ∈ ds, isDigit c = true := by
  unfold exponentPart? at h
  split at h
  · exact .inl rfl
  · next c r =>
    split at h
    · next hc =>
      obtain ⟨sign, hr, hsign⟩ := splitSign_eq r
      obtain ⟨n, hn, -⟩ := Option.map_eq_some_iff.1 h
      obtain ⟨m, hm, -⟩ := Option.map_eq_some_iff.1 hn
      refine .inr ⟨c, sign, (splitSign r).2, by rw [← hr], hc, hsign, ?_⟩
      unfold Text.digits? at hm
      split at hm
      · next hall => exact List.all_eq_true.1 hall.2
      · cases hm
    · cases h

/-- **A number literal consists of these parts.** -/
theorem parts_of_ofChars? {s : List Char} (h : (ofChars? s).isSome = true) :
    ∃ sign whole fraction power, Parts s sign whole fraction power := by
  obtain ⟨sign, hs, hsign⟩ := splitSign_eq s
  obtain ⟨fraction, hf, hfraction, hne⟩ :=
    splitFraction_eq (splitDigits (splitSign s).2).2
  unfold ofChars? at h
  simp only at h
  split at h
  · cases h
  · next power hp =>
    refine ⟨sign, (splitDigits (splitSign s).2).1, fraction,
      (splitFraction (splitDigits (splitSign s).2).2).2, ?_, hsign, ?_, hfraction,
      exponentPart?_eq hp, ?_⟩
    · rw [← hf]
      simp only [splitDigits, List.takeWhile_append_dropWhile]
      exact hs
    · intro c hc
      exact isDigit_of_mem_takeWhile hc
    · split at h
      · next hcond =>
        rcases hcond with hw | hd | ⟨hsome, -⟩
        · exact .inl hw
        · refine .inr (hne ?_)
          intro hnone
          rw [hnone] at hd
          exact hd rfl
        · refine .inr (hne ?_)
          intro hnone
          rw [hnone] at hsome
          cases hsome
      · cases h

/-- A character of a number literal. -/
def isLiteralChar (c : Char) : Bool :=
  isDigit c || c = '.' || c = 'e' || c = 'E' || c = '+' || c = '-'

variable {s sign whole fraction power : List Char}

theorem isLiteralChar_of_isDigit {c : Char} (h : isDigit c = true) : isLiteralChar c = true := by
  unfold isLiteralChar
  rw [h]
  rfl

theorem isLiteralChar_of_mem_sign {c : Char} (h : IsSign s) (hc : c ∈ s) :
    isLiteralChar c = true := by
  rcases h with rfl | rfl | rfl
  · cases hc
  · rw [List.mem_singleton.1 hc]; decide
  · rw [List.mem_singleton.1 hc]; decide

/-- Numbers are written with digits, signs, points and the marks of exponents only. -/
theorem Parts.mem (h : Parts s sign whole fraction power) {c : Char} (hc : c ∈ s) :
    isLiteralChar c = true := by
  rw [h.eq] at hc
  simp only [List.mem_append] at hc
  rcases hc with hc | hc | hc | hc
  · exact isLiteralChar_of_mem_sign h.isSign hc
  · exact isLiteralChar_of_isDigit (h.wholeDigits c hc)
  · rcases h.fractionDigits with hf | ⟨ds, hf, hds⟩
    · rw [hf] at hc; cases hc
    · rw [hf] at hc
      rcases List.mem_cons.1 hc with rfl | hc
      · decide
      · exact isLiteralChar_of_isDigit (hds c hc)
  · rcases h.powerDigits with hp | ⟨e, sg, ds, hp, he, hsg, hds⟩
    · rw [hp] at hc; cases hc
    · rw [hp] at hc
      rcases List.mem_cons.1 hc with rfl | hc
      · rcases he with rfl | rfl <;> decide
      · rcases List.mem_append.1 hc with hc | hc
        · exact isLiteralChar_of_mem_sign hsg hc
        · exact isLiteralChar_of_isDigit (hds c hc)

/-- A number literal starts with a digit, a sign or a point. -/
theorem Parts.head (h : Parts s sign whole fraction power) :
    ∃ c r, s = c :: r ∧ (isDigit c || c = '-' || c = '+' || c = '.') = true := by
  rcases h.isSign with hs | hs | hs
  · cases hw : whole with
    | cons c r =>
      refine ⟨c, r ++ (fraction ++ power), by rw [h.eq, hs, hw]; rfl, ?_⟩
      rw [h.wholeDigits c (by rw [hw]; exact List.mem_cons_self)]
      rfl
    | nil =>
      rcases h.fractionDigits with hf | ⟨ds, hf, -⟩
      · exact absurd (h.nonempty) (by simp [hw, hf])
      · exact ⟨'.', ds ++ power, by rw [h.eq, hs, hw, hf]; rfl, by decide⟩
  · exact ⟨'+', whole ++ (fraction ++ power), by rw [h.eq, hs]; rfl, by decide⟩
  · exact ⟨'-', whole ++ (fraction ++ power), by rw [h.eq, hs]; rfl, by decide⟩

/-- There is no point among digits. -/
theorem not_mem_of_digits {ds : List Char} (h : ∀ c ∈ ds, isDigit c = true) : '.' ∉ ds := by
  intro hmem
  have := h '.' hmem
  revert this
  decide

/-- There is no second point behind one in front. -/
theorem Parts.tail {r : List Char} (h : Parts ('.' :: r) sign whole fraction power) : '.' ∉ r := by
  have heq := h.eq
  have hsign : sign = [] := by
    rcases h.isSign with hs | hs | hs
    · exact hs
    · rw [hs] at heq; cases heq
    · rw [hs] at heq; cases heq
  have hwhole : whole = [] := by
    cases hw : whole with
    | nil => rfl
    | cons c ds =>
      rw [hsign, hw] at heq
      cases heq
      exact absurd List.mem_cons_self (hw ▸ not_mem_of_digits h.wholeDigits)
  rw [hsign, hwhole] at heq
  rcases h.fractionDigits with hf | ⟨ds, hf, hds⟩
  · exact absurd h.nonempty (by simp [hwhole, hf])
  · rw [hf] at heq
    have hr : r = ds ++ power := (List.cons.inj heq).2
    rw [hr, List.mem_append, not_or]
    refine ⟨not_mem_of_digits hds, ?_⟩
    rcases h.powerDigits with hp | ⟨e, sg, ds', hp, he, hsg, hds'⟩
    · rw [hp]; exact List.not_mem_nil
    · rw [hp, List.mem_cons, List.mem_append, not_or, not_or]
      -- the exponent has no point
      refine ⟨?_, ?_, not_mem_of_digits hds'⟩
      · rcases he with rfl | rfl <;> decide
      · rcases hsg with rfl | rfl | rfl <;> decide

/-- A number without blanks at its ends has the parts of a number literal. -/
theorem parts_of_isNumber (htrim : Text.trim s = s) (h : isNumber s = true) :
    ∃ sign whole fraction power, Parts s sign whole fraction power := by
  unfold isNumber read? at h
  rw [htrim] at h
  exact parts_of_ofChars? h

end Literal

end BimAudit.Decimal
