import Mathlib.Data.List.Basic
import BimAudit.Proofs.Numerals

/-!
# What is a number literal

A decimal number is a sign or none, digits with a point and more digits or without, or a point with
digits behind it, and an exponent or none. All of these are read. So is a point without any digits
as long as an exponent follows, `.E5`, although neither part of it is a number.

* `Parts.isSome_ofChars?_iff`: which texts are read, by the parts that they are made of.
* `isDecimal_iff`, `isBarePoint_iff`: decimal numbers and bare points by their parts.
* `isSome_number?_iff`: **what is read are decimal numbers and bare points.** `exists_bare_point`: a
  text that is read and is no number.
* `isNumber_iff_completed`: a reader of decimal numbers alone takes the same texts if it may try
  twice, the second time with a zero behind a bare point.
-/

namespace BimAudit.Decimal.Literal

open Text (isDigit)

/-- Nothing but digits. -/
def AreDigits (ds : List Char) : Prop := ∀ c ∈ ds, isDigit c = true

instance (ds : List Char) : Decidable (AreDigits ds) :=
  decidable_of_iff (ds.all isDigit = true) List.all_eq_true

/-- Digits, with a point behind them and more digits or without, or a point with digits. -/
inductive IsMantissa : List Char → Prop
  | whole {ds : List Char} (hne : ds ≠ []) (hds : AreDigits ds) : IsMantissa ds
  | pointed {ds fs : List Char} (hne : ds ≠ []) (hds : AreDigits ds) (hfs : AreDigits fs) :
      IsMantissa (ds ++ '.' :: fs)
  | fraction {fs : List Char} (hne : fs ≠ []) (hfs : AreDigits fs) : IsMantissa ('.' :: fs)

/-- The mark of the exponent, a sign or none, and digits. -/
def IsExponent (s : List Char) : Prop :=
  ∃ c sign ds, s = c :: (sign ++ ds) ∧ (c = 'e' ∨ c = 'E') ∧ IsSign sign ∧ ds ≠ [] ∧ AreDigits ds

/-- A decimal number. -/
def IsDecimal (s : List Char) : Prop :=
  ∃ sign mantissa power, s = sign ++ (mantissa ++ power) ∧ IsSign sign ∧ IsMantissa mantissa ∧
    (power = [] ∨ IsExponent power)

/-- A point without any digits, and an exponent. -/
def IsBarePoint (s : List Char) : Prop :=
  ∃ sign power, s = sign ++ '.' :: power ∧ IsSign sign ∧ IsExponent power

variable {s sign whole fraction power ds r : List Char}

/-! ### Splitting -/

/-- The sign is split off from what does not begin with one. -/
theorem splitSign_append (h : IsSign sign) (hr : ∀ c ∈ r.head?, c ≠ '+' ∧ c ≠ '-') :
    (splitSign (sign ++ r)).2 = r := by
  rcases h with rfl | rfl | rfl
  · rw [List.nil_append]
    unfold splitSign
    split
    · exact absurd rfl (hr '-' rfl).2
    · exact absurd rfl (hr '+' rfl).1
    · rfl
  · rfl
  · rfl

theorem splitDigits_append (h : AreDigits ds) (hr : ∀ c ∈ r.head?, isDigit c = false) :
    splitDigits (ds ++ r) = (ds, r) := by
  unfold splitDigits
  rw [List.takeWhile_append_of_pos h, List.dropWhile_append_of_pos h]
  cases r with
  | nil => simp
  | cons c r => simp [hr c rfl]

/-- An exponent is read. -/
theorem exponentPart?_of_isExponent (h : IsExponent s) :
    ∃ n, exponentPart? s = some (some n) := by
  obtain ⟨c, sign, ds, rfl, hc, hsign, hne, hds⟩ := h
  have hhead : ∀ d ∈ ds.head?, d ≠ '+' ∧ d ≠ '-' := by
    intro d hd
    have hdigit := hds d (List.mem_of_head? hd)
    exact ⟨by rintro rfl; revert hdigit; decide, by rintro rfl; revert hdigit; decide⟩
  have hread : Text.digits? ds = some (Text.decimalValue 0 ds) := by
    rw [Text.digits?, if_pos ⟨hne, List.all_eq_true.2 hds⟩]
  rw [exponentPart?, if_pos hc, signed?, splitSign_append hsign hhead, hread]
  exact ⟨_, rfl⟩

/-- Nothing else is read as an exponent. -/
theorem isExponent_of_exponentPart? {p : Option Int} (h : exponentPart? s = some p) :
    s = [] ∧ p = none ∨ IsExponent s ∧ p.isSome = true := by
  unfold exponentPart? at h
  split at h
  · exact .inl ⟨rfl, (Option.some.inj h).symm⟩
  · next c r =>
    split at h
    · next hc =>
      obtain ⟨n, hn, rfl⟩ := Option.map_eq_some_iff.1 h
      obtain ⟨m, hm, -⟩ := Option.map_eq_some_iff.1 hn
      obtain ⟨sign, hr, hsign⟩ := splitSign_eq r
      unfold Text.digits? at hm
      split at hm
      · next hall =>
        refine .inr ⟨⟨c, sign, (splitSign r).2, by rw [← hr], hc, hsign, hall.1, ?_⟩, rfl⟩
        exact List.all_eq_true.1 hall.2
      · cases hm
    · cases h

theorem IsExponent.ne_nil (h : IsExponent s) : s ≠ [] := by
  obtain ⟨c, sign, ds, rfl, -⟩ := h
  exact List.cons_ne_nil _ _

/-! ### Taking a text apart -/

theorem parts_of (heq : s = sign ++ (whole ++ (fraction ++ power))) (hsign : IsSign sign)
    (hwhole : AreDigits whole)
    (hfraction : fraction = [] ∨ ∃ fs, fraction = '.' :: fs ∧ AreDigits fs)
    (hpower : power = [] ∨ IsExponent power) (hne : whole ≠ [] ∨ fraction ≠ []) :
    Parts s sign whole fraction power where
  eq := heq
  isSign := hsign
  wholeDigits := hwhole
  fractionDigits := hfraction
  powerDigits := hpower.imp_right fun ⟨c, sign, ds, h, hc, hs, _, hds⟩ =>
    ⟨c, sign, ds, h, hc, hs, hds⟩
  nonempty := hne

namespace Parts

variable (h : Parts s sign whole fraction power)

include h

theorem head_power : ∀ c ∈ power.head?, isDigit c = false ∧ c ≠ '.' ∧ c ≠ '+' ∧ c ≠ '-' := by
  intro c hc
  rcases h.powerDigits with hp | ⟨e, sg, ds, hp, he, -⟩
  · rw [hp] at hc
    cases hc
  · rw [hp] at hc
    cases hc
    rcases he with rfl | rfl <;> decide

/-- Behind the digits comes no other digit. -/
theorem head_fraction : ∀ c ∈ (fraction ++ power).head?, isDigit c = false := by
  intro c hc
  rcases h.fractionDigits with hf | ⟨fs, hf, -⟩
  · rw [hf, List.nil_append] at hc
    exact (h.head_power c hc).1
  · rw [hf] at hc
    cases hc
    decide

theorem head_whole : ∀ c ∈ (whole ++ (fraction ++ power)).head?, c ≠ '+' ∧ c ≠ '-' := by
  intro c hc
  cases hw : whole with
  | cons d ds =>
    have hdigit := h.wholeDigits d (by rw [hw]; exact List.mem_cons_self)
    rw [hw] at hc
    cases hc
    exact ⟨by rintro rfl; revert hdigit; decide, by rintro rfl; revert hdigit; decide⟩
  | nil =>
    obtain ⟨fs, hf, -⟩ := h.fractionDigits.resolve_left (h.nonempty.resolve_left (by simp [hw]))
    rw [hw, hf] at hc
    cases hc
    decide

theorem splitSign_eq : (splitSign s).2 = whole ++ (fraction ++ power) := by
  rw [h.eq, splitSign_append h.isSign h.head_whole]

theorem splitDigits_eq : splitDigits (splitSign s).2 = (whole, fraction ++ power) := by
  rw [h.splitSign_eq, splitDigits_append h.wholeDigits h.head_fraction]

/-- The point, if there is one, and the digits behind it are split off. -/
theorem splitFraction_eq :
    splitFraction (fraction ++ power) = (fraction.head?.map fun _ => fraction.tail, power) := by
  rcases h.fractionDigits with rfl | ⟨fs, rfl, hfs⟩
  · rw [List.nil_append]
    unfold splitFraction
    split
    · exact absurd rfl (h.head_power '.' rfl).2.1
    · rfl
  · have hdigits : splitDigits (fs ++ power) = (fs, power) :=
      splitDigits_append hfs fun c hc => (h.head_power c hc).1
    rw [List.cons_append, splitFraction, hdigits]
    rfl

/-- **Which texts of these parts are read**: the exponent has digits, and there are digits around
the point or in the exponent. -/
theorem isSome_ofChars?_iff : (ofChars? s).isSome = true ↔
    (power = [] ∨ IsExponent power) ∧ (whole ≠ [] ∨ fraction.tail ≠ [] ∨ power ≠ []) := by
  have hpoint : (fraction.head?.map fun _ => fraction.tail).getD [] = fraction.tail := by
    cases fraction <;> rfl
  have hsome : (fraction.head?.map fun _ => fraction.tail).isSome = true ↔ fraction ≠ [] := by
    cases fraction <;> simp
  unfold ofChars?
  simp only [h.splitDigits_eq, h.splitFraction_eq, hpoint, hsome]
  cases hp : exponentPart? power with
  | none =>
    refine iff_of_false (by simp) fun ⟨hpower, _⟩ => ?_
    rcases hpower with rfl | hpower
    · cases hp
    · obtain ⟨n, hn⟩ := exponentPart?_of_isExponent hpower
      rw [hn] at hp
      cases hp
  | some p =>
    have hcomplete : (power = [] ∨ IsExponent power) ∧ (p.isSome = true ↔ power ≠ []) := by
      rcases isExponent_of_exponentPart? hp with ⟨rfl, rfl⟩ | ⟨hpower, hsome⟩
      · simp
      · exact ⟨.inr hpower, iff_of_true hsome hpower.ne_nil⟩
    -- without digits in front there is a point, so an exponent is enough
    have hcond : (whole ≠ [] ∨ fraction.tail ≠ [] ∨ fraction ≠ [] ∧ power ≠ []) ↔
        (whole ≠ [] ∨ fraction.tail ≠ [] ∨ power ≠ []) := by
      by_cases hw : whole = []
      · have hf := h.nonempty.resolve_left fun hne => hne hw
        simp [hf]
      · simp [hw]
    simp only [hcomplete.2, hcond]
    split
    · next hread => exact iff_of_true rfl ⟨hcomplete.1, hread⟩
    · next hnot => exact iff_of_false (by simp) fun ⟨_, hread⟩ => hnot hread

end Parts

/-! ### Decimal numbers and bare points -/

/-- A decimal number has digits in front of the point or behind it. -/
theorem isDecimal_iff : IsDecimal s ↔ ∃ sign whole fraction power,
    Parts s sign whole fraction power ∧ (power = [] ∨ IsExponent power) ∧
      (whole ≠ [] ∨ fraction.tail ≠ []) := by
  constructor
  · rintro ⟨sign, mantissa, power, rfl, hsign, hmantissa, hpower⟩
    cases hmantissa with
    | whole hne hds =>
      exact ⟨sign, mantissa, [], power, parts_of rfl hsign hds (.inl rfl) hpower (.inl hne), hpower,
        .inl hne⟩
    | @pointed ds fs hne hds hfs =>
      exact ⟨sign, ds, '.' :: fs, power, parts_of (by simp) hsign hds (.inr ⟨fs, rfl, hfs⟩) hpower
        (.inl hne), hpower, .inl hne⟩
    | @fraction fs hne hfs =>
      exact ⟨sign, [], '.' :: fs, power, parts_of (by simp) hsign (by simp [AreDigits])
        (.inr ⟨fs, rfl, hfs⟩) hpower (.inr (List.cons_ne_nil _ _)), hpower, .inr hne⟩
  · rintro ⟨sign, whole, fraction, power, h, hpower, hdigits⟩
    rcases h.fractionDigits with rfl | ⟨fs, rfl, hfs⟩
    · have hne : whole ≠ [] := hdigits.resolve_right (by simp)
      exact ⟨sign, whole, power, h.eq, h.isSign, .whole hne h.wholeDigits, hpower⟩
    · by_cases hw : whole = []
      · subst hw
        have hne : fs ≠ [] := hdigits.resolve_left (by simp)
        exact ⟨sign, '.' :: fs, power, h.eq, h.isSign, .fraction hne hfs, hpower⟩
      · have heq : s = sign ++ ((whole ++ '.' :: fs) ++ power) := by
          rw [h.eq, List.append_assoc]
        have hmantissa : IsMantissa (whole ++ '.' :: fs) := .pointed hw h.wholeDigits hfs
        exact ⟨sign, whole ++ '.' :: fs, power, heq, h.isSign, hmantissa, hpower⟩

/-- A bare point has digits in its exponent only. -/
theorem isBarePoint_iff : IsBarePoint s ↔ ∃ sign power,
    Parts s sign [] ['.'] power ∧ IsExponent power := by
  constructor
  · rintro ⟨sign, power, rfl, hsign, hpower⟩
    exact ⟨sign, power, parts_of rfl hsign (by simp [AreDigits])
      (.inr ⟨[], rfl, by simp [AreDigits]⟩) (.inr hpower) (.inr (List.cons_ne_nil _ _)), hpower⟩
  · rintro ⟨sign, power, h, hpower⟩
    exact ⟨sign, power, h.eq, h.isSign, hpower⟩

/-- No text is both. -/
theorem not_isBarePoint_of_isDecimal (h : IsDecimal s) : ¬ IsBarePoint s := by
  intro hbare
  obtain ⟨sign, whole, fraction, power, hparts, -, hdigits⟩ := isDecimal_iff.1 h
  obtain ⟨sign', power', hparts', -⟩ := isBarePoint_iff.1 hbare
  -- the parts are what the reader splits off, so they are the same
  have hsplit := hparts.splitDigits_eq.symm.trans hparts'.splitDigits_eq
  obtain ⟨rfl, hrest⟩ := Prod.mk.inj hsplit
  have hfraction := hparts.splitFraction_eq
  rw [hrest, hparts'.splitFraction_eq] at hfraction
  have hpoint := (Prod.mk.inj hfraction).1
  cases fraction with
  | nil => cases hpoint
  | cons c fs =>
    rcases hdigits with hw | hf
    · exact hw rfl
    · exact hf (Option.some.inj hpoint).symm

/-- **What is read** are decimal numbers and bare points. -/
theorem isSome_ofChars?_iff : (ofChars? s).isSome = true ↔ IsDecimal s ∨ IsBarePoint s := by
  constructor
  · intro hread
    obtain ⟨sign, whole, fraction, power, h⟩ := parts_of_ofChars? hread
    obtain ⟨hpower, hdigits⟩ := h.isSome_ofChars?_iff.1 hread
    by_cases hbare : whole = [] ∧ fraction.tail = []
    · obtain ⟨rfl, htail⟩ := hbare
      obtain ⟨fs, rfl, -⟩ := h.fractionDigits.resolve_left (h.nonempty.resolve_left (by simp))
      have hfs : fs = [] := htail
      subst hfs
      exact .inr (isBarePoint_iff.2 ⟨sign, power, h, hpower.resolve_left (by simpa using hdigits)⟩)
    · rw [not_and_or] at hbare
      exact .inl (isDecimal_iff.2 ⟨sign, whole, fraction, power, h, hpower, hbare⟩)
  · rintro (hdecimal | hbare)
    · obtain ⟨sign, whole, fraction, power, h, hpower, hdigits⟩ := isDecimal_iff.1 hdecimal
      exact h.isSome_ofChars?_iff.2 ⟨hpower, hdigits.imp_right .inl⟩
    · obtain ⟨sign, power, h, hpower⟩ := isBarePoint_iff.1 hbare
      exact h.isSome_ofChars?_iff.2 ⟨.inr hpower, .inr (.inr hpower.ne_nil)⟩

/-! ### A second attempt -/

/-- Begins with a digit or a point, perhaps behind a sign, holds some digit, and otherwise only what
numbers are written with. -/
def looksDecimal (s : List Char) : Bool :=
  ((splitSign s).2.head?.any fun c => isDigit c || c = '.') && (splitSign s).2.any isDigit &&
    (splitSign s).2.all isLiteralChar

/-- Replaces the first place where the characters `p` occur. -/
def replaceFirst (p q : List Char) : List Char → List Char
  | [] => []
  | c :: r =>
    if p.isPrefixOf (c :: r) then q ++ (c :: r).drop p.length else c :: replaceFirst p q r

/-- Puts a zero behind a point in front of an exponent and behind one at the end. -/
def completed (s : List Char) : List Char :=
  let s := replaceFirst ['.', 'E'] ['.', '0', 'E'] s
  let s := replaceFirst ['.', 'e'] ['.', '0', 'e'] s
  if s.getLast? = some '.' then s ++ ['0'] else s

/-- A zero has been put behind a point. -/
def Filled (s t : List Char) : Prop := ∃ a b, s = a ++ '.' :: b ∧ t = a ++ '.' :: '0' :: b

/-- A decimal number but for the digits, of which there may be none around the point. -/
def IsLoose (s : List Char) : Prop :=
  ∃ sign whole fraction power, Parts s sign whole fraction power ∧ (power = [] ∨ IsExponent power)

/-- Either there is nothing to replace, or one place is replaced. -/
theorem replaceFirst_cases {p : List Char} (hp : p ≠ []) (q s : List Char) :
    (∀ a b, s ≠ a ++ (p ++ b)) ∧ replaceFirst p q s = s ∨
      ∃ a b, s = a ++ (p ++ b) ∧ replaceFirst p q s = a ++ (q ++ b) := by
  induction s with
  | nil =>
    refine .inl ⟨fun a b h => hp ?_, rfl⟩
    simp_all
  | cons c r ih =>
    unfold replaceFirst
    split
    · next hprefix =>
      obtain ⟨b, hb⟩ := List.isPrefixOf_iff_prefix.1 hprefix
      refine .inr ⟨[], b, hb.symm, ?_⟩
      rw [← hb, List.drop_left, List.nil_append]
    · next hprefix =>
      rcases ih with ⟨hnone, hsame⟩ | ⟨a, b, hr, hnew⟩
      · refine .inl ⟨fun a b h => ?_, by rw [hsame]⟩
        cases a with
        | nil => exact hprefix (List.isPrefixOf_iff_prefix.2 ⟨b, h.symm⟩)
        | cons d a => exact hnone a b (List.cons.inj h).2
      · exact .inr ⟨c :: a, b, by rw [hr, List.cons_append], by rw [hnew, List.cons_append]⟩

namespace Parts

variable (h : Parts s sign whole fraction power)

include h

/-- There is no point in an exponent. -/
theorem not_mem_power : '.' ∉ power := by
  rcases h.powerDigits with hp | ⟨c, sg, ds, hp, hc, hsg, hds⟩
  · rw [hp]
    exact List.not_mem_nil
  · rw [hp, List.mem_cons, List.mem_append, not_or, not_or]
    refine ⟨?_, ?_, not_mem_of_digits hds⟩
    · rcases hc with rfl | rfl <;> decide
    · rcases hsg with rfl | rfl | rfl <;> decide

/-- There is no point in front of the digits behind it. -/
theorem not_mem_front : '.' ∉ sign ++ whole := by
  rw [List.mem_append, not_or]
  refine ⟨?_, not_mem_of_digits h.wholeDigits⟩
  rcases h.isSign with rfl | rfl | rfl <;> decide

/-- There is one point at most. -/
theorem point_unique {a b : List Char} (heq : s = a ++ '.' :: b) :
    ∃ fs, fraction = '.' :: fs ∧ AreDigits fs ∧ a = sign ++ whole ∧ b = fs ++ power := by
  have hs : s = (sign ++ whole) ++ (fraction ++ power) := by rw [h.eq, List.append_assoc]
  rcases h.fractionDigits with hf | ⟨fs, hf, hfs⟩
  · have hmem : '.' ∈ s := by simp [heq]
    rw [hs, hf, List.nil_append, List.mem_append] at hmem
    rcases hmem with hmem | hmem
    · exact absurd hmem h.not_mem_front
    · exact absurd hmem h.not_mem_power
  · rw [hf, List.cons_append] at hs
    have hnot : '.' ∉ fs ++ power := by
      rw [List.mem_append, not_or]
      exact ⟨not_mem_of_digits hfs, h.not_mem_power⟩
    obtain ⟨ha, -, hb⟩ := (List.append_cons_inj_of_notMem h.not_mem_front hnot).1
      (hs.symm.trans heq)
    exact ⟨fs, hf, hfs, ha.symm, hb.symm⟩

end Parts

theorem IsDecimal.isLoose (h : IsDecimal s) : IsLoose s := by
  obtain ⟨sign, whole, fraction, power, hparts, hpower, -⟩ := isDecimal_iff.1 h
  exact ⟨sign, whole, fraction, power, hparts, hpower⟩

/-- A zero behind the point makes a decimal number. -/
theorem IsLoose.filled {t : List Char} (h : IsLoose s) (hfilled : Filled s t) : IsDecimal t := by
  obtain ⟨sign, whole, fraction, power, hparts, hpower⟩ := h
  obtain ⟨a, b, hs, rfl⟩ := hfilled
  obtain ⟨fs, -, hfs, rfl, rfl⟩ := hparts.point_unique hs
  refine isDecimal_iff.2 ⟨sign, whole, '.' :: '0' :: fs, power, ?_, hpower, .inr (by simp)⟩
  refine parts_of (by simp) hparts.isSign hparts.wholeDigits (.inr ⟨'0' :: fs, rfl, ?_⟩) hpower
    (.inr (List.cons_ne_nil _ _))
  exact List.forall_mem_cons.2 ⟨rfl, hfs⟩

/-- Without the zero behind its point a number is one still, but perhaps without digits. -/
theorem IsLoose.unfilled {t : List Char} (h : IsLoose t) (hfilled : Filled s t) : IsLoose s := by
  obtain ⟨sign, whole, fraction, power, hparts, hpower⟩ := h
  obtain ⟨a, b, rfl, ht⟩ := hfilled
  obtain ⟨fs, -, hfs, rfl, hb⟩ := hparts.point_unique ht
  cases fs with
  | nil =>
    -- no exponent begins with a zero
    have hzero := (hparts.head_power '0' (by rw [← List.nil_append power, ← hb]; rfl)).1
    exact absurd hzero (by decide)
  | cons d fs =>
    obtain ⟨-, rfl⟩ := List.cons.inj hb
    refine ⟨sign, whole, '.' :: fs, power, ?_, hpower⟩
    exact parts_of (by simp) hparts.isSign hparts.wholeDigits
      (.inr ⟨fs, rfl, (List.forall_mem_cons.1 hfs).2⟩) hpower (.inr (List.cons_ne_nil _ _))

/-- With a digit somewhere it is read. -/
theorem IsLoose.read (h : IsLoose s) (hdigit : (splitSign s).2.any isDigit = true) :
    IsDecimal s ∨ IsBarePoint s := by
  obtain ⟨sign, whole, fraction, power, hparts, hpower⟩ := h
  refine isSome_ofChars?_iff.1 (hparts.isSome_ofChars?_iff.2 ⟨hpower, ?_⟩)
  by_contra hnone
  simp only [ne_eq, not_or, not_not] at hnone
  obtain ⟨hw, hf, hp⟩ := hnone
  obtain ⟨fs, hpoint, -⟩ := hparts.fractionDigits.resolve_left
    (hparts.nonempty.resolve_left fun hne => hne hw)
  have hfs : fs = [] := by rw [← hf, hpoint, List.tail_cons]
  rw [hparts.splitSign_eq, hw, hpoint, hfs, hp] at hdigit
  revert hdigit
  decide

/-- What is read looks like a number. -/
theorem Parts.looksDecimal (h : Parts s sign whole fraction power)
    (hpower : power = [] ∨ IsExponent power)
    (hdigits : whole ≠ [] ∨ fraction.tail ≠ [] ∨ power ≠ []) : looksDecimal s = true := by
  have hhead : (whole ++ (fraction ++ power)).head?.any (fun c => isDigit c || c = '.') = true := by
    cases hw : whole with
    | cons c ds =>
      have hc := h.wholeDigits c (by rw [hw]; exact List.mem_cons_self)
      simp [hc]
    | nil =>
      obtain ⟨fs, rfl, -⟩ := h.fractionDigits.resolve_left (h.nonempty.resolve_left (by simp [hw]))
      rfl
  have hany : (whole ++ (fraction ++ power)).any isDigit = true := by
    rw [List.any_eq_true]
    rcases hdigits with hne | hne | hne
    · obtain ⟨c, hc⟩ := List.exists_mem_of_ne_nil _ hne
      exact ⟨c, List.mem_append_left _ hc, h.wholeDigits c hc⟩
    · obtain ⟨c, hc⟩ := List.exists_mem_of_ne_nil _ hne
      rcases h.fractionDigits with rfl | ⟨fs, rfl, hfs⟩
      · cases hc
      · exact ⟨c, by simp [show c ∈ fs from hc], hfs c hc⟩
    · obtain ⟨e, sg, ds, hp, -, -, hds, hall⟩ := hpower.resolve_left hne
      obtain ⟨c, hc⟩ := List.exists_mem_of_ne_nil _ hds
      exact ⟨c, by simp [hp, hc], hall c hc⟩
  have hall : (whole ++ (fraction ++ power)).all isLiteralChar = true := by
    refine List.all_eq_true.2 fun c hc => h.mem ?_
    rw [h.eq]
    exact List.mem_append_right _ hc
  unfold Literal.looksDecimal
  rw [h.splitSign_eq, hhead, hany, hall]
  rfl

theorem looksDecimal_of_isSome (h : (ofChars? s).isSome = true) : looksDecimal s = true := by
  obtain ⟨sign, whole, fraction, power, hparts⟩ := parts_of_ofChars? h
  obtain ⟨hpower, hdigits⟩ := hparts.isSome_ofChars?_iff.1 h
  exact hparts.looksDecimal hpower hdigits

/-- Either no point stands in front of the mark, or a zero is put behind it. -/
theorem filled_or_eq_of_replaceFirst (c : Char) (s : List Char) :
    (∀ a b, s ≠ a ++ '.' :: c :: b) ∧ replaceFirst ['.', c] ['.', '0', c] s = s ∨
      Filled s (replaceFirst ['.', c] ['.', '0', c] s) := by
  rcases replaceFirst_cases (p := ['.', c]) (List.cons_ne_nil _ _) ['.', '0', c] s with
    hnone | ⟨a, b, hs, hnew⟩
  · exact .inl hnone
  · exact .inr ⟨a, c :: b, hs, hnew⟩

/-- A point at the end gets a zero. -/
theorem filled_of_getLast? (h : s.getLast? = some '.') : Filled s (s ++ ['0']) := by
  obtain ⟨a, rfl⟩ := List.getLast?_eq_some_iff.1 h
  exact ⟨a, [], rfl, by simp⟩

/-- A decimal number stays one when a zero is put behind its point. -/
theorem IsDecimal.keep {t : List Char} (h : IsDecimal s) (ht : t = s ∨ Filled s t) :
    IsDecimal t := by
  rcases ht with rfl | hfilled
  · exact h
  · exact h.isLoose.filled hfilled

theorem IsLoose.back {t : List Char} (h : IsLoose t) (ht : t = s ∨ Filled s t) : IsLoose s := by
  rcases ht with rfl | hfilled
  · exact h
  · exact h.unfilled hfilled

/-- What is completed to a decimal number was a number already, but perhaps without digits. -/
theorem isLoose_of_completed (h : IsDecimal (completed s)) : IsLoose s := by
  unfold completed at h
  have hlast : IsLoose (replaceFirst ['.', 'e'] ['.', '0', 'e']
      (replaceFirst ['.', 'E'] ['.', '0', 'E'] s)) := by
    simp only at h
    split at h
    · next hpoint => exact h.isLoose.unfilled (filled_of_getLast? hpoint)
    · exact h.isLoose
  exact (hlast.back ((filled_or_eq_of_replaceFirst 'e' _).imp_left And.right)).back
    ((filled_or_eq_of_replaceFirst 'E' s).imp_left And.right)

/-- A bare point is completed to a decimal number. -/
theorem isDecimal_completed (h : IsBarePoint s) : IsDecimal (completed s) := by
  obtain ⟨sign, power, hparts, hpower⟩ := isBarePoint_iff.1 h
  have hloose : IsLoose s := ⟨sign, [], ['.'], power, hparts, .inr hpower⟩
  obtain ⟨c, sg, ds, hp, hc, -⟩ := hpower
  have hpoint : s = sign ++ '.' :: c :: (sg ++ ds) := by rw [hparts.eq, hp]; rfl
  have hmarked : IsDecimal (replaceFirst ['.', 'e'] ['.', '0', 'e']
      (replaceFirst ['.', 'E'] ['.', '0', 'E'] s)) := by
    rcases filled_or_eq_of_replaceFirst 'E' s with ⟨hnone, hsame⟩ | hfilled
    · rw [hsame]
      rcases filled_or_eq_of_replaceFirst 'e' s with ⟨hnone', -⟩ | hfilled
      · -- the point stands in front of one of the two marks
        rcases hc with rfl | rfl
        · exact absurd hpoint (hnone' _ _)
        · exact absurd hpoint (hnone _ _)
      · exact hloose.filled hfilled
    · exact (hloose.filled hfilled).keep ((filled_or_eq_of_replaceFirst 'e' _).imp_left And.right)
  unfold completed
  simp only
  split
  · next hlast => exact hmarked.keep (.inr (filled_of_getLast? hlast))
  · exact hmarked

/-- **Two attempts.** What is read are the texts that look like numbers and are decimal numbers as
they stand, or else once they are completed. -/
theorem isNumber_iff_completed (s : List Char) : isNumber s = true ↔
    looksDecimal (Text.trim s) = true ∧
      (IsDecimal (Text.trim s) ∨ IsDecimal (completed (Text.trim s))) := by
  rw [isNumber, read?]
  constructor
  · intro h
    exact ⟨looksDecimal_of_isSome h, (isSome_ofChars?_iff.1 h).imp_right isDecimal_completed⟩
  · rintro ⟨hlooks, hdecimal⟩
    rw [isSome_ofChars?_iff]
    rcases hdecimal with hdecimal | hcompleted
    · exact .inl hdecimal
    · unfold looksDecimal at hlooks
      simp only [Bool.and_eq_true] at hlooks
      exact (isLoose_of_completed hcompleted).read hlooks.1.2

end BimAudit.Decimal.Literal

namespace BimAudit.Decimal

open Literal (IsDecimal IsBarePoint)
open Text (trim)

/-- **What is a number.** The texts that are read are, up to the blanks around them, the decimal
numbers and the bare points with an exponent, and no text is both. -/
theorem isSome_number?_iff (s : String) :
    ((number? s).isSome = true ↔ IsDecimal (trim s.toList) ∨ IsBarePoint (trim s.toList)) ∧
      ¬ (IsDecimal (trim s.toList) ∧ IsBarePoint (trim s.toList)) := by
  refine ⟨?_, fun ⟨hdecimal, hbare⟩ => Literal.not_isBarePoint_of_isDecimal hdecimal hbare⟩
  rw [← Literal.isSome_ofChars?_iff, number?, Option.isSome_map, Literal.read?]

/-- **A number without digits.** A point and an exponent are read, but are no decimal number. -/
theorem exists_bare_point :
    (number? ".E5").isSome = true ∧ ¬ IsDecimal (trim ".E5".toList) := by
  have hbare : IsBarePoint (trim ".E5".toList) :=
    ⟨[], ['E', '5'], rfl, .inl rfl, 'E', [], ['5'], rfl, .inr rfl, .inl rfl, by decide, by decide⟩
  refine ⟨?_, fun hdecimal => Literal.not_isBarePoint_of_isDecimal hdecimal hbare⟩
  rw [number?, Option.isSome_map, Literal.read?]
  exact Literal.isSome_ofChars?_iff.2 (.inr hbare)

end BimAudit.Decimal
