/-!
# Characters by their codes

Characters are given by code points, or by 16-bit units of which two surrogates together give one
character.
-/

namespace BimAudit.Text

/-- Stands for a code that is no character. -/
def replacement : Char := '\uFFFD'

/-- The character with this code, if there is one. -/
def charOfCode? (n : Nat) : Option Char :=
  if h : n.isValidChar then some (Char.ofNatAux n h) else none

/-- The unit is the first one of a pair. -/
def isHighSurrogate (u : Nat) : Bool := 0xD800 ≤ u && u < 0xDC00

/-- The unit is the second one of a pair. -/
def isLowSurrogate (u : Nat) : Bool := 0xDC00 ≤ u && u < 0xE000

/-- The code that a pair of surrogates stands for. -/
def pairCode (u v : Nat) : Nat := 0x10000 + (u - 0xD800) * 0x400 + (v - 0xDC00)

/-- Joins surrogate pairs of 16-bit units; a surrogate on its own becomes U+FFFD. -/
def charsOfUnits : List Nat → List Char
  | [] => []
  | u :: us =>
    match us with
    | [] => [(charOfCode? u).getD replacement]
    | v :: vs =>
      if isHighSurrogate u ∧ isLowSurrogate v then
        (charOfCode? (pairCode u v)).getD replacement :: charsOfUnits vs
      else (charOfCode? u).getD replacement :: charsOfUnits (v :: vs)

example : charsOfUnits [0x41, 0xD83D, 0xDE00, 0xDE00] = ['A', '😀', '\uFFFD'] := by decide

end BimAudit.Text
