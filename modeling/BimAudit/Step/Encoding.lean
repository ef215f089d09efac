import BimAudit.Text.CodePoint
import BimAudit.Text.Numeral

/-!
# Encoded strings

Strings of a STEP file are printable ASCII with directives for everything else: `''` and `\\` stand
for an apostrophe and a backslash, `\X\HH` for one character up to U+00FF, `\S\c` for the character
128 above `c`, `\X2\…\X0\` and `\X4\…\X0\` for groups of base-sixteen digits, and `\P?\` for
nothing. `decode` reads all of them; what is no directive stands for itself. `encode` writes the
plain form.
-/

namespace BimAudit.Step

open Text (replacement charOfCode? charsOfUnits)

/-- Reads groups of `width` base-sixteen digits from the front while there are any, and returns
their values and the text behind them. -/
def hexGroups (width : Nat) (s : List Char) : List Nat × List Char :=
  if _h : 0 < width ∧ width ≤ s.length then
    match Text.hex? (s.take width) with
    | some n =>
      let (ns, rest) := hexGroups width (s.drop width)
      (n :: ns, rest)
    | none => ([], s)
  else ([], s)
termination_by s.length
decreasing_by simp only [List.length_drop]; omega

/-- Splits at the first end marker `\X0\`. Without one the whole text comes before it. -/
def splitEndMarker : List Char → List Char × List Char
  | [] => ([], [])
  | c :: r =>
    if ['\\', 'X', '0', '\\'].isPrefixOf (c :: r) then ([], r.drop 3)
    else ((c :: (splitEndMarker r).1), (splitEndMarker r).2)

/-- The text of a run of 16-bit units; what forms no unit is kept as written. -/
def decodeUnits (s : List Char) : List Char :=
  charsOfUnits (hexGroups 4 s).1 ++ (hexGroups 4 s).2

/-- The text of a run of code points; what forms no code point is kept as written. -/
def decodeCodes (s : List Char) : List Char :=
  (hexGroups 8 s).1.map (fun n => (charOfCode? n).getD replacement) ++ (hexGroups 8 s).2

/-- The text that one character and what may follow it stand for, and the rest behind them. A
backslash that opens no directive stands for itself. -/
def decodeUnit (c : Char) (r : List Char) : List Char × List Char :=
  if c = '\'' then
    match r with
    | '\'' :: r => (['\''], r)
    | r => (['\''], r)
  else if c = '\\' then
    match r with
    | 'X' :: '\\' :: t =>
      match Text.hex? (t.take 2) with
      | some n => if (t.take 2).length = 2 then ([Char.ofNat n], t.drop 2) else (['\\'], r)
      | none => (['\\'], r)
    | 'X' :: '2' :: '\\' :: t => (decodeUnits (splitEndMarker t).1, (splitEndMarker t).2)
    | 'X' :: '4' :: '\\' :: t => (decodeCodes (splitEndMarker t).1, (splitEndMarker t).2)
    | 'S' :: '\\' :: d :: t => ((charOfCode? (d.toNat + 128)).toList, t)
    | 'P' :: _ :: '\\' :: t => ([], t)
    | '\\' :: t => (['\\'], t)
    | r => (['\\'], r)
  else ([c], r)

theorem length_splitEndMarker_le (s : List Char) : (splitEndMarker s).2.length ≤ s.length := by
  induction s with
  | nil => simp [splitEndMarker]
  | cons c r ih =>
    simp only [splitEndMarker]
    split
    · simp only [List.length_drop, List.length_cons]; omega
    · simp only [List.length_cons]; omega

/-- A unit leaves no more than there is. -/
theorem length_decodeUnit_le (c : Char) (r : List Char) : (decodeUnit c r).2.length ≤ r.length := by
  unfold decodeUnit
  split
  · split <;> simp
  · split
    · split
      · split
        · split <;> simp only [List.length_drop, List.length_cons] <;> omega
        · simp
      · next t => have := length_splitEndMarker_le t; simp only [List.length_cons]; omega
      · next t => have := length_splitEndMarker_le t; simp only [List.length_cons]; omega
      all_goals simp only [List.length_cons]; try omega
    · simp

/-- The text that an encoded string stands for. -/
def decode : List Char → List Char
  | [] => []
  | c :: r => (decodeUnit c r).1 ++ decode (decodeUnit c r).2
termination_by s => s.length
decreasing_by
  have := length_decodeUnit_le c r
  simp only [List.length_cons]; omega

/-- One character in its plain form: printable ASCII as it is, apostrophe and backslash doubled,
everything else as a run of one group of digits. -/
def encodeChar (c : Char) : List Char :=
  if c = '\'' then ['\'', '\'']
  else if c = '\\' then ['\\', '\\']
  else if ' ' ≤ c ∧ c ≤ '~' then [c]
  else if c.toNat < 0x10000 then
    ['\\', 'X', '2', '\\'] ++ Text.hexWritten 4 c.toNat ++ ['\\', 'X', '0', '\\']
  else ['\\', 'X', '4', '\\'] ++ Text.hexWritten 8 c.toNat ++ ['\\', 'X', '0', '\\']

/-- The plain form of a string. -/
def encode (s : List Char) : List Char := s.flatMap encodeChar

end BimAudit.Step
