import Mathlib.Data.List.Forall2
import BimAudit.Proofs.DigitGroups

/-!
# Mixed encodings are read back

A string may be written in many ways. It is cut into pieces, and each piece is written plainly, by
directives for single characters, or in groups of digits; directives for code pages may stand
between the pieces, and digits may be of either case. All of these texts stand for the string.

* `charsOfUnits_flatMap_unitsOf`: 16-bit units are read back, with two surrogates for one character.
* `hex?_of_written`, `hexGroups_of_written`: digits are read back in either case.
* `spells_encode`: every string can be written, for its plain form is one of these texts.
* `decode_of_spells`: **whatever the mixture, the string is read back.**
-/

namespace BimAudit.Text

/-- The 16-bit units of a character: its code, or the two surrogates of a code beyond 16 bits. -/
def unitsOf (c : Char) : List Nat :=
  if c.toNat < 0x10000 then [c.toNat]
  else [0xD800 + (c.toNat - 0x10000) / 0x400, 0xDC00 + (c.toNat - 0x10000) % 0x400]

/-- These are the lowest digits of a number in base sixteen, letters in either case. -/
def Written (width n : Nat) (ds : List Char) : Prop := ds.map Char.toUpper = hexWritten width n

instance (width n : Nat) (ds : List Char) : Decidable (Written width n ds) :=
  inferInstanceAs (Decidable (ds.map Char.toUpper = hexWritten width n))

/-! ### Units -/

theorem isValidChar_toNat (c : Char) : c.toNat < 0xD800 ∨ 0xDFFF < c.toNat ∧ c.toNat < 0x110000 :=
  c.valid

/-- A unit that begins no pair stands for itself. -/
theorem charsOfUnits_cons {u : Nat} (h : isHighSurrogate u = false) (us : List Nat) :
    charsOfUnits (u :: us) = (charOfCode? u).getD replacement :: charsOfUnits us := by
  cases us with
  | nil => rfl
  | cons v us => simp [charsOfUnits, h]

/-- **The units of a character are read as this character**, whatever follows. -/
theorem charsOfUnits_unitsOf_append (c : Char) (us : List Nat) :
    charsOfUnits (unitsOf c ++ us) = c :: charsOfUnits us := by
  have hvalid := isValidChar_toNat c
  unfold unitsOf
  split
  · -- no character has the code of a surrogate
    have hunit : isHighSurrogate c.toNat = false := by
      simp only [isHighSurrogate, Bool.and_eq_false_iff, decide_eq_false_iff_not]
      omega
    rw [List.singleton_append, charsOfUnits_cons hunit, charOfCode?_toNat, Option.getD_some]
  · have hhigh : isHighSurrogate (0xD800 + (c.toNat - 0x10000) / 0x400) = true := by
      simp only [isHighSurrogate, Bool.and_eq_true, decide_eq_true_eq]
      omega
    have hlow : isLowSurrogate (0xDC00 + (c.toNat - 0x10000) % 0x400) = true := by
      simp only [isLowSurrogate, Bool.and_eq_true, decide_eq_true_eq]
      omega
    have hpair : pairCode (0xD800 + (c.toNat - 0x10000) / 0x400)
        (0xDC00 + (c.toNat - 0x10000) % 0x400) = c.toNat := by
      unfold pairCode
      omega
    simp only [List.cons_append, List.nil_append, charsOfUnits]
    rw [if_pos ⟨hhigh, hlow⟩, hpair, charOfCode?_toNat, Option.getD_some]

/-- **A string is read back from its units.** -/
theorem charsOfUnits_flatMap_unitsOf (s : List Char) : charsOfUnits (s.flatMap unitsOf) = s := by
  induction s with
  | nil => rfl
  | cons c s ih => rw [List.flatMap_cons, charsOfUnits_unitsOf_append, ih]

/-- A unit has 16 bits. -/
theorem lt_of_mem_unitsOf {c : Char} {u : Nat} (h : u ∈ unitsOf c) : u < 16 ^ 4 := by
  have hvalid := isValidChar_toNat c
  unfold unitsOf at h
  split at h
  · rw [List.mem_singleton.1 h]
    omega
  · simp only [List.mem_cons, List.not_mem_nil, or_false] at h
    omega

/-! ### Digits in either case -/

/-- Only the letters of ASCII have another upper case. -/
theorem toNat_toUpper (c : Char) :
    c.toUpper.toNat = if 97 ≤ c.toNat ∧ c.toNat ≤ 122 then c.toNat - 32 else c.toNat := by
  unfold Char.toUpper
  split
  · next h =>
    have hlower : 97 ≤ c.toNat ∧ c.toNat ≤ 122 := h
    have hadd : (c.val + ('A'.val - 'a'.val)).toNat = (c.toNat + 4294967264) % 4294967296 :=
      UInt32.toNat_add _ _
    rw [if_pos hlower]
    refine hadd.trans ?_
    omega
  · next h =>
    have hother : ¬ (97 ≤ c.toNat ∧ c.toNat ≤ 122) := h
    rw [if_neg hother]

theorem hexDigit?_toUpper (c : Char) : hexDigit? c.toUpper = hexDigit? c := by
  rw [hexDigit?_eq, hexDigit?_eq, toNat_toUpper]
  grind

/-- Digits in base sixteen mean the same in either case. -/
theorem hexDigits?_map_toUpper (s : List Char) :
    hexDigits? (s.map Char.toUpper) = hexDigits? s := by
  unfold hexDigits?
  rw [List.foldlM_map]
  simp only [hexDigit?_toUpper, List.map_eq_nil_iff]

section Written

variable {width n : Nat} {ds : List Char}

/-- What a number is written with are characters of words. -/
theorem Written.wordChar_toUpper (h : Written width n ds) {c : Char} (hc : c ∈ ds) :
    isWordChar c.toUpper = true := by
  unfold Written at h
  have hmem := List.mem_map_of_mem (f := Char.toUpper) hc
  rw [h] at hmem
  exact isWordChar_of_mem_hexWritten hmem

/-- No other character is among the digits of a number. -/
theorem Written.ne (h : Written width n ds) {c a : Char} (hc : c ∈ ds)
    (ha : isWordChar a.toUpper = false) : c ≠ a := by
  rintro rfl
  rw [h.wordChar_toUpper hc] at ha
  cases ha

theorem Written.length (h : Written width n ds) : ds.length = width := by
  rw [← length_hexWritten width n, ← h, List.length_map]

/-- **A number is read back from its digits**, in either case. -/
theorem hex?_of_written (hw : 0 < width) (hn : n < 16 ^ width) (h : Written width n ds) :
    hex? ds = some n := by
  have hplus : ds.head? ≠ some '+' :=
    fun hhead => h.ne (List.mem_of_head? hhead) (by decide) rfl
  have hupper : (hexWritten width n).head? ≠ some '+' := by
    intro hhead
    have := isWordChar_of_mem_hexWritten (List.mem_of_head? hhead)
    revert this
    decide
  have hread := hex?_hexWritten hw hn
  rw [hex?_of_head_ne hupper, ← h, hexDigits?_map_toUpper] at hread
  rw [hex?_of_head_ne hplus, hread]

theorem toUpper_hexChar : ∀ d : Fin 16, (hexChar d).toUpper = hexChar d := by decide

theorem written_hexWritten (width n : Nat) : Written width n (hexWritten width n) := by
  unfold Written
  induction width generalizing n with
  | zero => rfl
  | succ width ih =>
    rw [hexWritten, List.map_append, ih, List.map_singleton,
      toUpper_hexChar ⟨n % 16, Nat.mod_lt _ (by decide)⟩]

end Written

end BimAudit.Text

namespace BimAudit.Step

open Text (Written hexWritten unitsOf)

/-- An encoded text stands for a string if it is made of pieces that do, one after the other: plain
ones of printable characters, `\X\HH` for a character up to U+00FF, `\S\c` for one that is 128 above
a printable character other than the apostrophe, `\X2\…\X0\` and `\X4\…\X0\` for any characters, by
their units or their codes, and `\P?\` for nothing. -/
inductive Spells : List Char → List Char → Prop
  | nil : Spells [] []
  | plain {t s : List Char} (p : List Char) (hp : ∀ c ∈ p, ' ' ≤ c ∧ c ≤ '~') (h : Spells t s) :
      Spells (encode p ++ t) (p ++ s)
  | byte {t s : List Char} (c : Char) (ds : List Char) (hc : c.toNat ≤ 0xFF)
      (hds : Written 2 c.toNat ds) (h : Spells t s) :
      Spells ('\\' :: 'X' :: '\\' :: (ds ++ t)) (c :: s)
  | shifted {t s : List Char} (c d : Char) (hc : 0xA0 ≤ c.toNat ∧ c.toNat ≤ 0xFE ∧ c.toNat ≠ 0xA7)
      (hd : d.toNat + 128 = c.toNat) (h : Spells t s) :
      Spells ('\\' :: 'S' :: '\\' :: d :: t) (c :: s)
  | units {t s : List Char} (p : List Char) (dss : List (List Char))
      (hp : List.Forall₂ (Written 4) (p.flatMap unitsOf) dss) (h : Spells t s) :
      Spells ('\\' :: 'X' :: '2' :: '\\' :: (dss.flatten ++ (endMarker ++ t))) (p ++ s)
  | codes {t s : List Char} (p : List Char) (dss : List (List Char))
      (hp : List.Forall₂ (Written 8) (p.map Char.toNat) dss) (h : Spells t s) :
      Spells ('\\' :: 'X' :: '4' :: '\\' :: (dss.flatten ++ (endMarker ++ t))) (p ++ s)
  | page {t s : List Char} (d : Char) (h : Spells t s) :
      Spells ('\\' :: 'P' :: d :: '\\' :: t) s

/-! ### Pieces -/

/-- **A plain piece is read as it was before it was encoded**, whatever follows. -/
theorem decode_encode_append (p t : List Char) : decode (encode p ++ t) = p ++ decode t := by
  induction p with
  | nil => rfl
  | cons c p ih =>
    unfold encode at ih ⊢
    rw [List.flatMap_cons, List.append_assoc, decode_encodeChar, ih, List.cons_append]

/-- A shifted character is read as the one that is 128 above. -/
theorem decode_shifted {c d : Char} (h : d.toNat + 128 = c.toNat) (t : List Char) :
    decode ('\\' :: 'S' :: '\\' :: d :: t) = c :: decode t := by
  have hunit : decodeUnit '\\' ('S' :: '\\' :: d :: t) = ([c], t) := by
    simp only [decodeUnit, Char.reduceEq, if_false, if_true]
    rw [h, Text.charOfCode?_toNat]
    rfl
  rw [decode_cons, hunit]
  rfl

/-- A page stands for nothing. -/
theorem decode_page (d : Char) (t : List Char) :
    decode ('\\' :: 'P' :: d :: '\\' :: t) = decode t := by
  rw [decode_cons]
  rfl

variable {width : Nat} {ns : List Nat} {dss : List (List Char)} {t : List Char}

/-- **Groups of digits are read back.** -/
theorem hexGroups_of_written (hw : 0 < width) (hn : ∀ n ∈ ns, n < 16 ^ width)
    (h : List.Forall₂ (Written width) ns dss) : hexGroups width dss.flatten = (ns, []) := by
  induction h with
  | nil => exact hexGroups_nil hw
  | cons hd _ ih =>
    obtain ⟨hlt, hns⟩ := List.forall_mem_cons.1 hn
    rw [List.flatten_cons, hexGroups_append hw hd.length (Text.hex?_of_written hw hlt hd), ih hns]

/-- There is no backslash among the digits. -/
theorem ne_backslash_of_written (h : List.Forall₂ (Written width) ns dss) :
    ∀ c ∈ dss.flatten, c ≠ '\\' := by
  induction h with
  | nil => simp
  | cons hd _ ih =>
    intro c hc
    rw [List.flatten_cons, List.mem_append] at hc
    rcases hc with hc | hc
    · exact hd.ne hc (by decide)
    · exact ih c hc

/-- The end marker behind the digits is the first one. -/
theorem splitEndMarker_written (h : List.Forall₂ (Written width) ns dss) (t : List Char) :
    splitEndMarker (dss.flatten ++ (endMarker ++ t)) = (dss.flatten, t) :=
  splitEndMarker_append (ne_backslash_of_written h) t

/-- **Characters written by their units are read back**, up to the end marker. -/
theorem decode_units_of_written {p : List Char}
    (h : List.Forall₂ (Written 4) (p.flatMap unitsOf) dss) (t : List Char) :
    decode ('\\' :: 'X' :: '2' :: '\\' :: (dss.flatten ++ (endMarker ++ t))) = p ++ decode t := by
  have hunits : ∀ u ∈ p.flatMap unitsOf, u < 16 ^ 4 := by
    intro u hu
    obtain ⟨c, -, hc⟩ := List.mem_flatMap.1 hu
    exact Text.lt_of_mem_unitsOf hc
  rw [decode_units, splitEndMarker_written h, hexGroups_of_written (by decide) hunits h,
    Text.charsOfUnits_flatMap_unitsOf, List.nil_append]

/-- Every character is the one with its code. -/
theorem charsOfCodes_map_toNat (p : List Char) : charsOfCodes (p.map Char.toNat) = p := by
  unfold charsOfCodes
  rw [List.map_map]
  refine List.map_id'' (fun c => ?_) p
  rw [Function.comp_apply, Text.charOfCode?_toNat, Option.getD_some]

/-- **Characters written by their codes are read back**, up to the end marker. -/
theorem decode_codes_of_written {p : List Char}
    (h : List.Forall₂ (Written 8) (p.map Char.toNat) dss) (t : List Char) :
    decode ('\\' :: 'X' :: '4' :: '\\' :: (dss.flatten ++ (endMarker ++ t))) = p ++ decode t := by
  have hcodes : ∀ n ∈ p.map Char.toNat, n < 16 ^ 8 := by
    intro n hn
    obtain ⟨c, -, rfl⟩ := List.mem_map.1 hn
    exact toNat_lt_of_char c
  rw [decode_codes, splitEndMarker_written h, hexGroups_of_written (by decide) hcodes h,
    charsOfCodes_map_toNat, List.nil_append]

/-! ### Strings -/

/-- **Every string has an encoding**: its plain form is one. -/
theorem spells_encode (s : List Char) : Spells (encode s) s := by
  induction s with
  | nil => exact .nil
  | cons c s ih =>
    have hcons : encode (c :: s) = encodeChar c ++ encode s := List.flatMap_cons
    by_cases hplain : ' ' ≤ c ∧ c ≤ '~'
    · have hone : encode [c] = encodeChar c := List.flatMap_singleton ..
      rw [hcons, ← hone]
      exact .plain [c] (by simpa using hplain) ih
    · have hquote : c ≠ '\'' := by
        rintro rfl
        exact hplain (by decide)
      have hslash : c ≠ '\\' := by
        rintro rfl
        exact hplain (by decide)
      rw [hcons, encodeChar, if_neg hquote, if_neg hslash, if_neg hplain]
      simp only [List.append_assoc]
      split
      · next hlt =>
        have hunits : [c].flatMap unitsOf = [c.toNat] := by simp [unitsOf, hlt]
        exact .units [c] [hexWritten 4 c.toNat]
          (by rw [hunits]; exact .cons (Text.written_hexWritten _ _) .nil) ih
      · exact .codes [c] [hexWritten 8 c.toNat]
          (.cons (Text.written_hexWritten _ _) .nil) ih

/-- **A string is read back from every mixture of encodings.** -/
theorem decode_of_spells {t s : List Char} (h : Spells t s) : decode t = s := by
  induction h with
  | nil => rw [decode]
  | plain p _ _ ih => rw [decode_encode_append, ih]
  | byte c ds hc hds _ ih =>
    have hn : c.toNat < 16 ^ 2 := Nat.lt_succ_of_le hc
    rw [decode_byte hds.length (Text.hex?_of_written (by decide) hn hds), ih, Char.ofNat_toNat]
  | shifted c d _ hd _ ih => rw [decode_shifted hd, ih]
  | units p dss hp _ ih => rw [decode_units_of_written hp, ih]
  | codes p dss hp _ ih => rw [decode_codes_of_written hp, ih]
  | page d _ ih => rw [decode_page, ih]

/-- All the forms next to each other: a doubled apostrophe, a backslash in two roles, digits of
either case, and a digit right behind an end marker. -/
theorem decode_of_spells_mixed :
    Spells "it''s\\S\\\\\\\\\\X\\fC\\X2\\D83dDe00\\X0\\0\\X4\\000000e9\\X0\\\\P'\\''".toList
        "it'sÜ\\ü😀0é'".toList ∧
      decode "it''s\\S\\\\\\\\\\X\\fC\\X2\\D83dDe00\\X0\\0\\X4\\000000e9\\X0\\\\P'\\''".toList
        = "it'sÜ\\ü😀0é'".toList := by
  have h := Spells.plain ['i', 't', '\'', 's'] (by simp) <|
    .shifted 'Ü' '\\' (by decide) (by decide) <|
    .plain ['\\'] (by simp) <|
    .byte 'ü' ['f', 'C'] (by decide) (by decide) <|
    .units ['😀'] [['D', '8', '3', 'd'], ['D', 'e', '0', '0']] (by decide) <|
    .plain ['0'] (by simp) <|
    .codes ['é'] [['0', '0', '0', '0', '0', '0', 'e', '9']] (by decide) <|
    .page '\'' <|
    .plain ['\''] (by simp) .nil
  exact ⟨h, decode_of_spells h⟩

end BimAudit.Step
