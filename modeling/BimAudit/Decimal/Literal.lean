import BimAudit.Text.Blank
import BimAudit.Text.Numeral

/-!
# Number literals

Numbers as building models and requirements write them: an optional sign, digits with an optional
point, an optional exponent. The digits may be missing on one side of the point, and on both if an
exponent follows; `1.E-3` and `5.` are numbers. `Literal.toFloat` is the nearest binary64 value.
-/

namespace BimAudit.Decimal

/-- A decimal number `± mantissa · 10 ^ exponent` as it was written. -/
structure Literal where
  negative : Bool
  mantissa : Nat
  exponent : Int
deriving DecidableEq, Repr

namespace Literal

/-- Splits off one sign; the flag says that it is a minus. -/
def splitSign : List Char → Bool × List Char
  | '-' :: r => (true, r)
  | '+' :: r => (false, r)
  | s => (false, s)

/-- Splits the longest run of digits off the front. -/
def splitDigits (s : List Char) : List Char × List Char :=
  (s.takeWhile Text.isDigit, s.dropWhile Text.isDigit)

/-- Splits off a point and the digits behind it, or nothing if no point comes first. -/
def splitFraction : List Char → Option (List Char) × List Char
  | '.' :: r => (some (splitDigits r).1, (splitDigits r).2)
  | s => (none, s)

/-- A signed run of digits, to the very end. -/
def signed? (s : List Char) : Option Int :=
  (Text.digits? (splitSign s).2).map fun n => if (splitSign s).1 then -(n : Int) else n

/-- What may follow the mantissa: nothing, or a complete exponent part. -/
def exponentPart? : List Char → Option (Option Int)
  | [] => some none
  | c :: r => if c = 'e' ∨ c = 'E' then (signed? r).map some else none

/-- Reads a number without blanks around it. -/
def ofChars? (s : List Char) : Option Literal :=
  let (negative, s) := splitSign s
  let (whole, s) := splitDigits s
  let (fraction, s) := splitFraction s
  match exponentPart? s with
  | none => none
  | some power =>
    if whole ≠ [] ∨ fraction.getD [] ≠ [] ∨ (fraction.isSome ∧ power.isSome) then
      some ⟨negative, Text.decimalValue (Text.decimalValue 0 whole) (fraction.getD []),
        power.getD 0 - (fraction.getD []).length⟩
    else none

/-- Reads a number with blanks allowed at both ends. -/
def read? (s : List Char) : Option Literal := ofChars? (Text.trim s)

/-- The binary64 value nearest to a number without its sign. Outside of the range of binary64 the
answer is zero or infinity, and no power of ten is formed. -/
def magnitude (l : Literal) : Float :=
  let scale := (Nat.toDigits 10 l.mantissa).length + l.exponent
  if l.mantissa = 0 ∨ scale < -400 then 0
  else if scale > 400 then Float.ofBits 0x7FF0000000000000
  else Float.ofScientific l.mantissa (decide (l.exponent < 0)) l.exponent.natAbs

/-- The binary64 value nearest to the number; a zero keeps its sign. -/
def toFloat (l : Literal) : Float := if l.negative then -l.magnitude else l.magnitude

end Literal

/-- The value of a number literal, or `none` if the text is no number. -/
def number? (s : String) : Option Float := (Literal.read? s.toList).map Literal.toFloat

/-- The text is a number literal. -/
def isNumber (s : List Char) : Bool := (Literal.read? s).isSome

example : Literal.read? " 1.E-3".toList = some ⟨false, 1, -3⟩ := by decide
example : Literal.read? "-.25e2".toList = some ⟨true, 25, 0⟩ := by decide
example : Literal.read? ".E5".toList = some ⟨false, 0, 5⟩ := by decide
example : Literal.read? "1e".toList = none := by decide

end BimAudit.Decimal
