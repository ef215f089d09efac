import BimAudit.Text.Ascii

/-!
# Numerals

Reading of natural numbers in base ten and of groups of base-sixteen digits, and their writing.
The readers accept one plus sign in front of the digits where they say so.
-/

namespace BimAudit.Text

/-- One more than the largest 64-bit word. -/
def wordLimit : Nat := Nat.pow 2 64

/-- The value of a run of decimal digits, on top of what was read before. -/
def decimalValue (n : Nat) (ds : List Char) : Nat :=
  ds.foldl (fun n c => 10 * n + (c.toNat - '0'.toNat)) n

/-- Reads a non-empty run of decimal digits. -/
def digits? (s : List Char) : Option Nat :=
  if s ≠ [] ∧ s.all isDigit then some (decimalValue 0 s) else none

/-- Reads a non-empty run of decimal digits whose value fits a 64-bit word. -/
def wordDigits? (s : List Char) : Option Nat :=
  (digits? s).filter (· < wordLimit)

/-- Reads a 64-bit word in decimal digits, with one plus sign in front or none. -/
def word? : List Char → Option Nat
  | '+' :: r => wordDigits? r
  | s => wordDigits? s

/-- The value of a base-sixteen digit, in either case. -/
def hexDigit? (c : Char) : Option Nat :=
  if isDigit c then some (c.toNat - '0'.toNat)
  else if 'a' ≤ c ∧ c ≤ 'f' then some (c.toNat - 'a'.toNat + 10)
  else if 'A' ≤ c ∧ c ≤ 'F' then some (c.toNat - 'A'.toNat + 10)
  else none

/-- Reads a non-empty run of base-sixteen digits. -/
def hexDigits? (s : List Char) : Option Nat :=
  if s = [] then none
  else s.foldlM (fun n c => (hexDigit? c).map (16 * n + ·)) 0

/-- Reads a base-sixteen numeral, with one plus sign in front or none. -/
def hex? : List Char → Option Nat
  | '+' :: r => hexDigits? r
  | s => hexDigits? s

/-- The character of a base-sixteen digit, letters in upper case. -/
def hexChar (d : Nat) : Char :=
  if d < 10 then Char.ofNat ('0'.toNat + d) else Char.ofNat ('A'.toNat + (d - 10))

/-- The lowest digits of a number in base sixteen, most significant first. -/
def hexWritten : Nat → Nat → List Char
  | 0, _ => []
  | width + 1, n => hexWritten width (n / 16) ++ [hexChar (n % 16)]

example : word? "+007".toList = some 7 := by decide
example : word? "18446744073709551616".toList = none := by decide
example : hex? "+fF".toList = some 255 := by decide
example : hexWritten 4 0x1B0 = "01B0".toList := by decide

end BimAudit.Text
