import BimAudit.Json.Basic
import BimAudit.Text.Blank
import BimAudit.Text.CodePoint
import BimAudit.Text.Numeral

/-!
# Reading JSON

The reader takes one value with blanks around it. Nesting is limited to 127 levels. A number with a
fraction or an exponent is its first 64-bit digits, scaled by powers of ten step by step, each step
rounded. What is nested deeper, a number too large for binary64 and a string with half a surrogate
pair are well-formed but have no value.

* `Json.read?`: what a well-formed text holds, parts without a value included.
* `Json.parse?`: the value of a text all of which has a value.
-/

namespace BimAudit.Json

/-- Drops the white space in front. -/
def skip (s : List Char) : List Char := s.dropWhile Text.isSpace

/-- The deepest nesting of arrays and objects. -/
def maxDepth : Nat := 127

/-! ### Numbers -/

/-- The digits that fit a 64-bit word, as a value, and how many digits were left over. -/
def takeWord (n : Nat) : List Char → Nat × Nat
  | [] => (n, 0)
  | c :: r =>
    let m := 10 * n + (c.toNat - '0'.toNat)
    if m < Text.wordLimit then takeWord m r else (n, r.length + 1)

/-- The power of ten, for exponents up to 308. -/
def powerOfTen (n : Nat) : Float := Float.ofScientific 1 false n

/-- Scales down by a power of ten of any size. -/
def scaleDown (x : Float) (n : Nat) : Float :=
  if h : n ≤ 308 then x / powerOfTen n
  else if x == 0 then x
  else scaleDown (x / powerOfTen 308) (n - 308)
termination_by n

/-- Scales by a power of ten; `none` if the result is too large. -/
def scale? (x : Float) (exponent : Int) : Option Float :=
  if exponent < 0 then some (scaleDown x exponent.natAbs)
  else if exponent ≤ 308 then
    let y := x * powerOfTen exponent.natAbs
    if y.isInf then none else some y
  else if x == 0 then some x
  else none

/-- Splits off a sign and digits behind an exponent mark, or fails if there are no digits. -/
def exponent? (s : List Char) : Option (Int × List Char) :=
  let (minus, s) := match s with
    | '-' :: r => (true, r)
    | '+' :: r => (false, r)
    | s => (false, s)
  let digits := s.takeWhile Text.isDigit
  if digits = [] then none
  else
    let n : Int := Text.decimalValue 0 digits
    some (if minus then -n else n, s.dropWhile Text.isDigit)

/-- The number with the given digits and exponent. A written exponent beyond 31 bits counts as too
large, or as zero if it is negative or the digits are. -/
def real? (negative : Bool) (word : Nat) (shift : Int) (written : Option Int) : Option Number :=
  let sign (x : Float) : Number := .real (if negative then -x else x)
  match written with
  | none => (scale? (Float.ofNat word) shift).map sign
  | some e =>
    -- an exponent of more than 31 bits
    if e.natAbs ≥ Nat.pow 2 31 then
      if word = 0 ∨ e < 0 then some (sign 0) else none
    else (scale? (Float.ofNat word) (shift + e)).map sign

/-- Reads a number from the front; it has no value if it is too large. -/
def number? (s : List Char) : Option (Option Number × List Char) := do
  let (negative, s) := match s with
    | '-' :: r => (true, r)
    | s => (false, s)
  let whole := s.takeWhile Text.isDigit
  let rest := s.dropWhile Text.isDigit
  if whole = [] ∨ (whole.head? = some '0' ∧ whole.length > 1) then none
  else
    -- digits that no longer fit into the word count by their number only
    let (word, left) := takeWord 0 whole
    let (fraction, rest) ← match rest with
      | '.' :: r =>
        let digits := r.takeWhile Text.isDigit
        if digits = [] then none else some (some digits, r.dropWhile Text.isDigit)
      | r => some (none, r)
    let (word, shift) : Nat × Int := match fraction with
      | none => (word, left)
      | some digits =>
        let (word, spare) := takeWord word digits
        (word, (left : Int) - (digits.length - spare : Nat))
    let (written, rest) ← match rest with
      | c :: r =>
        if c = 'e' ∨ c = 'E' then (exponent? r).map fun (e, r) => (some e, r)
        else some (none, c :: r)
      | [] => some (none, [])
    if fraction.isNone ∧ written.isNone ∧ left = 0 then
      -- a whole number; minus zero and what does not fit into 64 bits are real
      if negative then
        if word = 0 ∨ word > Nat.pow 2 63 then some (some (.real (-(Float.ofNat word))), rest)
        else some (some (.negative word), rest)
      else some (some (.natural word), rest)
    else some (real? negative word shift written, rest)

/-! ### Strings -/

/-- Reads four base-sixteen digits. -/
def unit? (s : List Char) : Option (Nat × List Char) :=
  if (s.take 4).length = 4 then (Text.hexDigits? (s.take 4)).map (·, s.drop 4) else none

/-- The character behind a backslash and a letter other than `u`. -/
def escape? : Char → Option Char
  | '"' => some '"'
  | '\\' => some '\\'
  | '/' => some '/'
  | 'b' => some '\x08'
  | 'f' => some '\x0c'
  | 'n' => some '\n'
  | 'r' => some '\r'
  | 't' => some '\t'
  | _ => none

/-- The second half of a pair of surrogates. -/
def secondHalf? (s : List Char) : Option (Nat × List Char) :=
  match s with
  | '\\' :: 'u' :: r => (unit? r).filter (Text.isLowSurrogate ·.1)
  | _ => none

/-- The character behind a backslash and a `u`: none for a surrogate that is not in a pair. -/
def unicode? (s : List Char) : Option (Option Char × List Char) :=
  (unit? s).map fun (u, r) =>
    if Text.isHighSurrogate u then
      match secondHalf? r with
      | some (v, r) => (Text.charOfCode? (Text.pairCode u v), r)
      | none => (none, r)
    else (Text.charOfCode? u, r)

/-- What one character inside a string stands for, given the rest: `none` for a character that may
not stand there. -/
def stringUnit? (c : Char) (r : List Char) : Option (Option Char × List Char) :=
  if c = '\\' then
    match r with
    | 'u' :: r => unicode? r
    | e :: r => (escape? e).map (some ·, r)
    | [] => none
  else if c < ' ' then none
  else some (some c, r)

theorem length_unit? {s r : List Char} {n : Nat} (h : unit? s = some (n, r)) :
    r.length ≤ s.length := by
  unfold unit? at h
  split at h
  · obtain ⟨m, _, heq⟩ := Option.map_eq_some_iff.1 h
    cases heq; simp
  · cases h

/-- The second half of a pair uses up a part of the text, at most. -/
theorem length_secondHalf? {s r : List Char} {n : Nat} (h : secondHalf? s = some (n, r)) :
    r.length ≤ s.length := by
  unfold secondHalf? at h
  split at h
  · have := length_unit? (Option.filter_eq_some_iff.1 h).1
    simp only [List.length_cons]; omega
  · cases h

theorem length_unicode? {s r : List Char} {c : Option Char} (h : unicode? s = some (c, r)) :
    r.length ≤ s.length := by
  unfold unicode? at h
  obtain ⟨⟨u, r₁⟩, h₁, heq⟩ := Option.map_eq_some_iff.1 h
  have l₁ := length_unit? h₁
  simp only at heq
  split at heq
  · split at heq
    · next h₂ =>
      have l₂ := length_secondHalf? h₂
      rw [← (Prod.mk.inj heq).2]; omega
    · rw [← (Prod.mk.inj heq).2]; exact l₁
  · rw [← (Prod.mk.inj heq).2]; exact l₁

/-- A unit of a string uses up a part of the text, at most. -/
theorem length_stringUnit? {c : Char} {d : Option Char} {s r : List Char}
    (h : stringUnit? c s = some (d, r)) : r.length ≤ s.length := by
  unfold stringUnit? at h
  split at h
  · split at h
    · have := length_unicode? h
      simp only [List.length_cons]; omega
    · obtain ⟨e, _, heq⟩ := Option.map_eq_some_iff.1 h
      cases heq; simp
    · cases h
  · split at h
    · cases h
    · cases h; exact Nat.le_refl _

/-- Reads the inside of a string up to its closing quote; it has no value if a character in it has
none. -/
def stringBody? : List Char → Option (Option (List Char) × List Char)
  | [] => none
  | c :: r =>
    if c = '"' then some (some [], r)
    else match _h : stringUnit? c r with
      | none => none
      | some (d, r') =>
        (stringBody? r').map fun (body, rest) => (d.bind fun d => body.map (d :: ·), rest)
termination_by s => s.length
decreasing_by
  have := length_stringUnit? _h
  simp only [List.length_cons]; omega

/-! ### Values -/

/-- Takes a word off the front. -/
def word? (w : String) (s : List Char) : Option (List Char) :=
  if w.toList.isPrefixOf s then some (s.drop w.length) else none

/-- What is still open while a value is read: an array with its items so far, or an object with its
members so far and the name of the next, both in reverse. The names of an object may have no
value. -/
inductive Frame where
  | items (done : List Json)
  | members (done : List (Option String × Json)) (name : Option String)

/-- The object with the given members; it has no value if a name has none. -/
def ofMembers (ms : List (Option String × Json)) : Json :=
  match ms.mapM fun m => m.1.map (·, m.2) with
  | some ms => .object ms
  | none => .void

/-- An array or an object at a level; it has no value if it is too deep. -/
def atDepth (depth : Nat) (j : Json) : Json := if depth < maxDepth then j else .void

/-- What the reader does next. -/
inductive Goal where
  /-- Read a value. -/
  | value
  /-- Put a value into the innermost open frame. -/
  | close (j : Json)

/-- Reads the name of a member with its colon. -/
def name? (s : List Char) : Option (Option String × List Char) :=
  match s with
  | '"' :: r => do
    let (body, r) ← stringBody? r
    match skip r with
    | ':' :: r => some (body.map String.ofList, r)
    | _ => none
  | _ => none

/-- One move of the reader over a stack of open frames. A finished value without open frames is the
answer, with the rest of the text. -/
def move (stack : List Frame) (goal : Goal) (s : List Char) :
    Option (Sum (Json × List Char) (List Frame × Goal × List Char)) :=
  match goal with
  | .value =>
    match skip s with
    | '[' :: r =>
      match skip r with
      | ']' :: r => some (.inr (stack, .close (atDepth stack.length (.array [])), r))
      | r => some (.inr (.items [] :: stack, .value, r))
    | '\x7b' :: r =>
      match skip r with
      | '\x7d' :: r => some (.inr (stack, .close (atDepth stack.length (.object [])), r))
      | r => (name? r).map fun (n, r) => .inr (.members [] n :: stack, .value, r)
    | '"' :: r =>
      (stringBody? r).map fun (b, r) =>
        .inr (stack, .close ((b.map fun b => .string (String.ofList b)).getD .void), r)
    | s =>
      if let some r := word? "null" s then some (.inr (stack, .close .null, r))
      else if let some r := word? "true" s then some (.inr (stack, .close (.bool true), r))
      else if let some r := word? "false" s then some (.inr (stack, .close (.bool false), r))
      else (number? s).map fun (n, r) => .inr (stack, .close ((n.map .number).getD .void), r)
  | .close j =>
    match stack with
    | [] => some (.inl (j, s))
    | .items done :: stack =>
      match skip s with
      | ',' :: r => some (.inr (.items (j :: done) :: stack, .value, r))
      | ']' :: r =>
        some (.inr (stack, .close (atDepth stack.length (.array (j :: done).reverse)), r))
      | _ => none
    | .members done n :: stack =>
      match skip s with
      | ',' :: r =>
        (name? (skip r)).map fun (m, r) => .inr (.members ((n, j) :: done) m :: stack, .value, r)
      | '\x7d' :: r =>
        some (.inr (stack, .close (atDepth stack.length (ofMembers ((n, j) :: done).reverse)), r))
      | _ => none

/-- Moves on until a value is complete. Each value takes one move to read and one to close, so twice
the length of the text is enough. -/
def run : Nat → List Frame → Goal → List Char → Option (Json × List Char)
  | 0, _, _, _ => none
  | n + 1, stack, goal, s =>
    match move stack goal s with
    | none => none
    | some (.inl answer) => some answer
    | some (.inr (stack, goal, s)) => run n stack goal s

/-- What a well-formed text holds, parts without a value included. -/
def read? (s : String) : Option Json :=
  match run (2 * s.length + 2) [] .value s.toList with
  | some (j, rest) => if skip rest = [] then some j else none
  | none => none

/-- The value of a text that holds one value and nothing else. -/
def parse? (s : String) : Option Json := (read? s).filter isSound

end BimAudit.Json
