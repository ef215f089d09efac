import BimAudit.Text.Blank
import BimAudit.Text.CodePoint
import BimAudit.Text.Numeral

/-!
# Character references

Five characters have names in XML, and every character but NUL has a number. `escape` writes the
five as references, `unescape?` reads all references back.

* `unescape?_escape`: reading gives back what was written.
-/

namespace BimAudit.Xml

/-- The text of one character. -/
def escapeChar (c : Char) : List Char :=
  if c = '<' then "&lt;".toList
  else if c = '>' then "&gt;".toList
  else if c = '&' then "&amp;".toList
  else if c = '\'' then "&apos;".toList
  else if c = '"' then "&quot;".toList
  else [c]

/-- A text with references for the five characters that have names. -/
def escape (s : List Char) : List Char := s.flatMap escapeChar

/-- The character that a reference between `&` and `;` stands for. -/
def reference? (name : List Char) : Option Char :=
  match name with
  | ['l', 't'] => some '<'
  | ['g', 't'] => some '>'
  | ['a', 'm', 'p'] => some '&'
  | ['a', 'p', 'o', 's'] => some '\''
  | ['q', 'u', 'o', 't'] => some '"'
  | '#' :: 'x' :: ds => numbered (Text.hexDigits? ds)
  | '#' :: ds => numbered (Text.digits? ds)
  | _ => none
where
  /-- The character with a number, which must not be zero. -/
  numbered (n : Option Nat) : Option Char := (n.filter (· ≠ 0)).bind Text.charOfCode?

/-- A character that may stand in a reference. -/
def inReference (c : Char) : Bool := c ≠ ';' && c ≠ '&'

/-- Replaces the references in a text; `none` if one is not closed or has no meaning. -/
def unescape? (s : List Char) : Option (List Char) :=
  match s with
  | [] => some []
  | c :: r =>
    if c = '&' then
      match _h : r.dropWhile inReference with
      | ';' :: rest => do
        let c ← reference? (r.takeWhile inReference)
        let rest ← unescape? rest
        return c :: rest
      | _ => none
    else (unescape? r).map (c :: ·)
termination_by s.length
decreasing_by
  · have := Text.length_dropWhile_le inReference r
    rw [_h, List.length_cons] at this
    simp only [List.length_cons]; omega
  · simp

/-- A character that is no ampersand stands for itself. -/
theorem unescape?_cons {c : Char} (h : c ≠ '&') (r : List Char) :
    unescape? (c :: r) = (unescape? r).map (c :: ·) := by
  rw [unescape?, if_neg h]

/-- A reference stands for its character. -/
theorem unescape?_reference (name : List Char) {c : Char} (hn : ∀ x ∈ name, inReference x)
    (hc : reference? name = some c) (r : List Char) :
    unescape? ('&' :: (name ++ ';' :: r)) = (unescape? r).map (c :: ·) := by
  have hd : (name ++ ';' :: r).dropWhile inReference = ';' :: r := by
    rw [List.dropWhile_append_of_pos hn]; simp [inReference]
  have ht : (name ++ ';' :: r).takeWhile inReference = name := by
    rw [List.takeWhile_append_of_pos hn]; simp [inReference]
  rw [unescape?, if_pos rfl]
  split
  · next rest h =>
    rw [hd] at h
    cases h
    rw [ht, hc]
    cases unescape? r <;> rfl
  · next h => exact absurd hd (h r)

/-- An escaped character is read as itself. -/
theorem unescape?_escapeChar (c : Char) (r : List Char) :
    unescape? (escapeChar c ++ r) = (unescape? r).map (c :: ·) := by
  unfold escapeChar
  split
  · next h => subst h; exact unescape?_reference ['l', 't'] (by simp [inReference]) rfl r
  split
  · next h => subst h; exact unescape?_reference ['g', 't'] (by simp [inReference]) rfl r
  split
  · next h => subst h; exact unescape?_reference ['a', 'm', 'p'] (by simp [inReference]) rfl r
  split
  · next h => subst h; exact unescape?_reference ['a', 'p', 'o', 's'] (by simp [inReference]) rfl r
  split
  · next h => subst h; exact unescape?_reference ['q', 'u', 'o', 't'] (by simp [inReference]) rfl r
  · exact unescape?_cons (by assumption) r

/-- **Reading gives back what was written.** -/
theorem unescape?_escape (s : List Char) : unescape? (escape s) = some s := by
  induction s with
  | nil => simp [escape, unescape?]
  | cons c r ih =>
    rw [escape, List.flatMap_cons, unescape?_escapeChar, ← escape, ih]
    rfl

end BimAudit.Xml
