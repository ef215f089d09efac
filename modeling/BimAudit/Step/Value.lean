import BimAudit.Step.Parameter
import BimAudit.Decimal.Literal

/-!
# Parameter values

A parameter is told by its first and last characters (`Shape.of`); lists and typed values hold
parameters in turn, each a shorter text than the one it came from, so reading ends (`Value.read`).
-/

namespace BimAudit.Step

/-- The value of one parameter. -/
inductive Value where
  /-- A string, decoded. -/
  | string (text : String)
  /-- A number literal as it was written. -/
  | number (text : String)
  /-- A name between points. -/
  | enum (name : String)
  /-- A reference to the record with this id. -/
  | reference (id : Nat)
  | list (items : List Value)
  /-- A value with the name of its type, such as `IFCLABEL('x')`. -/
  | typed (type : String) (inner : Value)
  /-- A parameter left open. -/
  | null
  /-- A parameter that follows from others. -/
  | derived
deriving Repr, Inhabited

/-- What a parameter looks like from outside; lists and typed values are not yet read inside. -/
inductive Shape where
  | null
  | derived
  | reference (id : Nat)
  /-- A literal, with the characters between its apostrophes. -/
  | string (body : List Char)
  | enum (body : List Char)
  /-- A list, with the text between its parentheses. -/
  | list (body : List Char)
  | number
  /-- A typed value, with its type and the text between its parentheses. -/
  | typed (type body : List Char)
  /-- None of these: the text is taken as a string. -/
  | bare
deriving DecidableEq, Repr

/-- The text between its first and last character, if these are two and as given. -/
def between? (first last : Char) : List Char → Option (List Char)
  | [] => none
  | [_] => none
  | c :: r => if c = first ∧ r.getLast? = some last then some r.dropLast else none

/-- A reference: a number sign and a number. -/
def reference? : List Char → Option Nat
  | '#' :: r => Text.word? r
  | _ => none

/-- A number starts with a digit, a sign or a point. -/
def isNumeric : List Char → Bool
  | [] => false
  | c :: r =>
    (Text.isDigit c || c = '-' || c = '+' || c = '.') && Decimal.isNumber (c :: r)

/-- Splits a typed value at its first parenthesis. -/
def typed? (s : List Char) : Option (List Char × List Char) :=
  let type := s.takeWhile (· ≠ '(')
  (between? '(' ')' (s.dropWhile (· ≠ '('))).bind fun body =>
    if type ≠ [] ∧ type.all Text.isWordChar then some (type, body) else none

/-- The shape of a parameter without blanks around it. -/
def Shape.of (s : List Char) : Shape :=
  if s = [] ∨ s = ['$'] then .null
  else if s = ['*'] then .derived
  else match reference? s with
  | some id => .reference id
  | none =>
  match between? '\'' '\'' s with
  | some body => .string body
  | none =>
  match (between? '.' '.' s).filter (·.all Text.isWordChar) with
  | some body => .enum body
  | none =>
  match between? '(' ')' s with
  | some body => .list body
  | none =>
  if isNumeric s then .number
  else match typed? s with
  | some (type, body) => .typed type body
  | none => .bare

/-! ### What is inside is shorter -/

/-- The text between two characters is shorter by both of them. -/
theorem length_of_between? {a b : Char} {s t : List Char} (h : between? a b s = some t) :
    t.length + 2 = s.length := by
  unfold between? at h
  split at h
  · cases h
  · cases h
  · next c r hr =>
    split at h
    · cases h
      cases r with
      | nil => simp at hr
      | cons d r => simp
    · cases h

/-- The content of a typed value is shorter by its parentheses, at least. -/
theorem length_of_typed? {s t body : List Char} (h : typed? s = some (t, body)) :
    body.length + 2 ≤ s.length := by
  unfold typed? at h
  obtain ⟨b, hb, hif⟩ := Option.bind_eq_some_iff.1 h
  have hlen := length_of_between? hb
  have hle := (List.dropWhile_suffix (l := s) (· ≠ '(')).length_le
  split at hif
  · cases hif; omega
  · cases hif

/-- The content of a list is shorter by its parentheses. -/
theorem length_of_shape_list {s body : List Char} (h : Shape.of s = .list body) :
    body.length + 2 = s.length := by
  unfold Shape.of at h
  repeat' (split at h)
  all_goals first | (cases h; done) | (cases h; exact length_of_between? (by assumption))

theorem length_of_shape_typed {s t body : List Char} (h : Shape.of s = .typed t body) :
    body.length + 2 ≤ s.length := by
  unfold Shape.of at h
  repeat' (split at h)
  all_goals first | (cases h; done) | (cases h; exact length_of_typed? (by assumption))

theorem length_pushFront (c : Char) (ps : List (List Char)) :
    (pushFront c ps).flatten.length = ps.flatten.length + 1 := by
  cases ps <;> simp [pushFront]

theorem length_pieces_le (n : Nesting) (s : List Char) :
    (pieces n s).flatten.length ≤ s.length := by
  induction s generalizing n with
  | nil => simp [pieces]
  | cons c r ih =>
    simp only [pieces]
    split
    · have := ih n
      simp only [List.flatten_cons, List.nil_append, List.length_cons]; omega
    · have := ih (n.next c)
      rw [length_pushFront, List.length_cons]; omega

/-- A piece is no longer than the text. -/
theorem length_le_of_mem_pieces {n : Nesting} {s p : List Char} (h : p ∈ pieces n s) :
    p.length ≤ s.length :=
  Nat.le_trans (List.Sublist.length_le (List.sublist_flatten_of_mem h)) (length_pieces_le n s)

/-- A parameter is no longer than the text. -/
theorem length_le_of_mem_splitParameters {s p : List Char} (h : p ∈ splitParameters s) :
    p.length ≤ s.length := by
  have hm : p ∈ (pieces {} s).map Text.trim := by
    unfold splitParameters at h
    split at h
    · cases h
    · exact h
  obtain ⟨q, hq, rfl⟩ := List.mem_map.1 hm
  exact Nat.le_trans (Text.length_trim_le q) (length_le_of_mem_pieces hq)

/-! ### Reading -/

/-- Upper-case ASCII letters for lower-case ones, as a string. -/
def upperString (s : List Char) : String := String.ofList (s.map Char.toUpper)

mutual

/-- The value of one parameter. -/
def Value.read (s : List Char) : Value :=
  match _h : Shape.of (Text.trim s) with
  | .null => .null
  | .derived => .derived
  | .reference id => .reference id
  | .string body => .string (String.ofList (decode body))
  | .enum body => .enum (String.ofList body)
  | .list body => .list (Value.readAll body)
  | .number => .number (String.ofList (Text.trim s))
  | .typed type body => .typed (upperString type) (Value.read body)
  | .bare => .string (String.ofList (Text.trim s))
termination_by 2 * s.length
decreasing_by
  · -- a list is read inside its parentheses
    have h₁ := length_of_shape_list _h
    have h₂ := Text.length_trim_le s
    omega
  · -- so is a typed value
    have h₁ := length_of_shape_typed _h
    have h₂ := Text.length_trim_le s
    omega

/-- The values of a parameter text. -/
def Value.readAll (s : List Char) : List Value :=
  (splitParameters s).attach.map fun ⟨p, _⟩ => Value.read p
termination_by 2 * s.length + 1
decreasing_by
  -- a single parameter may be as long as the whole text; reading it comes after splitting
  have hp := length_le_of_mem_splitParameters ‹p ∈ splitParameters s›
  omega

end

/-! ### Views -/

namespace Value

/-- The text of a string, also inside a typed value. -/
def text? : Value → Option String
  | string s => some s
  | typed _ inner => inner.text?
  | _ => none

/-- The id of a reference. -/
def reference? : Value → Option Nat
  | reference id => some id
  | _ => none

/-- The ids referred to by the value itself or by the members of a list. -/
def references : Value → List Nat
  | reference id => [id]
  | list items => items.filterMap reference?
  | _ => []

/-- The word for a truth value; any other name is its own word. -/
def enumWord (name : String) : String :=
  if name = "T" then "TRUE"
  else if name = "F" then "FALSE"
  else if name = "U" then "UNKNOWN"
  else name

mutual

/-- The text by which a property value is compared: strings decoded, numbers as written, truth
values as words, list members joined by commas, and nothing for an open parameter. -/
def propertyText : Value → String
  | string s => s
  | number s => s
  | enum name => enumWord name
  | .reference id => "#" ++ toString id
  | list items => ", ".intercalate (propertyTexts items)
  | typed _ inner => inner.propertyText
  | null => ""
  | derived => ""

/-- The texts of the members of a list. -/
def propertyTexts : List Value → List String
  | [] => []
  | v :: vs => v.propertyText :: propertyTexts vs

end

end Value

end BimAudit.Step
