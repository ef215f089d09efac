import BimAudit.Proofs.Numerals
import BimAudit.Step.Encoding

/-!
# Encoded strings are read back

Every character is written in a form that stands for it whatever follows, so a string is read back
from its plain form.

* `decode_encodeChar`: reading one character undoes writing it.
* `decode_encode`: **so it is for strings.**
-/

namespace BimAudit.Step

open Text (hexWritten)

/-- A run of digits ends at its end marker. -/
theorem splitEndMarker_append {p : List Char} (h : ∀ c ∈ p, c ≠ '\\') (r : List Char) :
    splitEndMarker (p ++ '\\' :: 'X' :: '0' :: '\\' :: r) = (p, r) := by
  induction p with
  | nil => simp [splitEndMarker]
  | cons c p ih =>
    have hc : ('\\' == c) = false := by
      have := h c List.mem_cons_self
      simpa using this.symm
    rw [List.cons_append, splitEndMarker, ih fun d hd => h d (List.mem_cons_of_mem _ hd)]
    simp [List.isPrefixOf, hc]

theorem hexGroups_nil {width : Nat} (hw : 0 < width) : hexGroups width [] = ([], []) := by
  rw [hexGroups, dif_neg]
  rw [List.length_nil]
  omega

/-- A number that is written with all its digits is one group. -/
theorem hexGroups_hexWritten {width n : Nat} (hw : 0 < width) (hn : n < 16 ^ width) :
    hexGroups width (hexWritten width n) = ([n], []) := by
  have hlen := Text.length_hexWritten width n
  rw [hexGroups, dif_pos ⟨hw, Nat.le_of_eq hlen.symm⟩,
    List.take_of_length_le (Nat.le_of_eq hlen), Text.hex?_hexWritten hw hn,
    List.drop_eq_nil_of_le (Nat.le_of_eq hlen)]
  simp only [hexGroups_nil hw]

/-- There is no backslash among digits. -/
theorem ne_backslash_of_mem_hexWritten {width n : Nat} {c : Char} (h : c ∈ hexWritten width n) :
    c ≠ '\\' := by
  rintro rfl
  have := Text.isWordChar_of_mem_hexWritten h
  revert this
  decide

/-- A character that one unit of 16 bits gives. -/
theorem decodeUnits_hexWritten {c : Char} (h : c.toNat < 0x10000) :
    decodeUnits (hexWritten 4 c.toNat) = [c] := by
  unfold decodeUnits
  rw [hexGroups_hexWritten (by decide) h]
  simp [Text.charsOfUnits, Text.charOfCode?_toNat]

theorem toNat_lt_of_char (c : Char) : c.toNat < 16 ^ 8 := by
  have h : c.toNat.isValidChar := c.valid
  unfold Nat.isValidChar at h
  omega

/-- A character that is written with eight digits is decoded. -/
theorem decodeCodes_hexWritten (c : Char) : decodeCodes (hexWritten 8 c.toNat) = [c] := by
  unfold decodeCodes
  rw [hexGroups_hexWritten (by decide) (toNat_lt_of_char c)]
  simp [Text.charOfCode?_toNat]

/-- Text is decoded one unit after the other. -/
theorem decode_cons (c : Char) (r : List Char) :
    decode (c :: r) = (decodeUnit c r).1 ++ decode (decodeUnit c r).2 := by
  rw [decode]

/-- **Reading one character undoes writing it**, whatever follows. -/
theorem decode_encodeChar (c : Char) (r : List Char) :
    decode (encodeChar c ++ r) = c :: decode r := by
  unfold encodeChar
  split
  · next h =>
    rw [h, List.cons_append, List.cons_append, List.nil_append, decode_cons]
    rfl
  split
  · next h =>
    rw [h, List.cons_append, List.cons_append, List.nil_append, decode_cons]
    rfl
  split
  · -- neither an apostrophe nor a backslash, so no directive starts here
    next hquote hslash _ =>
    rw [List.cons_append, List.nil_append, decode_cons]
    simp [decodeUnit, hquote, hslash]
  split
  · next hlt =>
    -- one group of four digits
    simp only [List.cons_append, List.nil_append, List.append_assoc]
    rw [decode_cons]
    have hunit : decodeUnit '\\' ('X' :: '2' :: '\\' ::
        (hexWritten 4 c.toNat ++ '\\' :: 'X' :: '0' :: '\\' :: r)) = ([c], r) := by
      simp only [decodeUnit, Char.reduceEq, if_false, if_true]
      rw [splitEndMarker_append fun d hd => ne_backslash_of_mem_hexWritten hd,
        decodeUnits_hexWritten hlt]
    rw [hunit]
    rfl
  · -- one group of eight digits
    simp only [List.cons_append, List.nil_append, List.append_assoc]
    rw [decode_cons]
    have hunit : decodeUnit '\\' ('X' :: '4' :: '\\' ::
        (hexWritten 8 c.toNat ++ '\\' :: 'X' :: '0' :: '\\' :: r)) = ([c], r) := by
      simp only [decodeUnit, Char.reduceEq, if_false, if_true]
      rw [splitEndMarker_append fun d hd => ne_backslash_of_mem_hexWritten hd,
        decodeCodes_hexWritten]
    rw [hunit]
    rfl

/-- **A string is read back from its plain form.** -/
theorem decode_encode (s : List Char) : decode (encode s) = s := by
  induction s with
  | nil => simp [encode, decode]
  | cons c s ih =>
    unfold encode at ih ⊢
    rw [List.flatMap_cons, decode_encodeChar, ih]

end BimAudit.Step
