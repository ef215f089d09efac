import BimAudit.Text.Numeral

/-!
# Sets of characters

A set of characters is given by closed ranges of code points, which may come in any order and
overlap. Complements are taken over all code points; what is not a character is never asked for.

* `CharSet.contains`: the characters of a set.
* `CharSet.complement`, `CharSet.inter`, `CharSet.diff`, `CharSet.symmDiff`: sets made of others.
* `CharSet.ofTable`: reads a set from a table.
-/

namespace BimAudit.Unicode

/-- The largest code point. -/
def maxCode : Nat := 0x10FFFF

/-- A set of characters. -/
structure CharSet where
  /-- The first and the last code point of each range. -/
  ranges : List (Nat × Nat)
deriving DecidableEq, Repr

namespace CharSet

/-- The code point is in one of the ranges. -/
def hasCode (s : CharSet) (n : Nat) : Bool := s.ranges.any fun r => r.1 ≤ n && n ≤ r.2

/-- The character is in the set. -/
def contains (s : CharSet) (c : Char) : Bool := s.hasCode c.toNat

/-- No characters. -/
def empty : CharSet := ⟨[]⟩

/-- All characters. -/
def full : CharSet := ⟨[(0, maxCode)]⟩

/-- The characters of ASCII. -/
def ascii : CharSet := ⟨[(0, 0x7F)]⟩

/-- The characters from one to another. -/
def range (a b : Char) : CharSet := ⟨[(a.toNat, b.toNat)]⟩

/-- One character. -/
def single (c : Char) : CharSet := range c c

/-- The listed characters. -/
def ofChars (cs : List Char) : CharSet := ⟨cs.map fun c => (c.toNat, c.toNat)⟩

/-- The characters of either set. -/
def union (s t : CharSet) : CharSet := ⟨s.ranges ++ t.ranges⟩

/-- The characters of any of the sets. -/
def unions (ss : List CharSet) : CharSet := ⟨ss.flatMap (·.ranges)⟩

/-- What ranges in ascending order leave free from a code point on. -/
def gaps (next : Nat) : List (Nat × Nat) → List (Nat × Nat)
  | [] => if next ≤ maxCode then [(next, maxCode)] else []
  | r :: rs =>
    if next < r.1 then (next, r.1 - 1) :: gaps (max next (r.2 + 1)) rs
    else gaps (max next (r.2 + 1)) rs

/-- The characters that are not in the set. -/
def complement (s : CharSet) : CharSet := ⟨gaps 0 (s.ranges.mergeSort fun r t => r.1 ≤ t.1)⟩

/-- The same set in ascending ranges that are apart from each other. -/
def normal (s : CharSet) : CharSet := s.complement.complement

/-- The characters of both sets. -/
def inter (s t : CharSet) : CharSet := (s.complement.union t.complement).complement

/-- The characters of the first set that are not in the second. -/
def diff (s t : CharSet) : CharSet := (s.complement.union t).complement

/-- The characters of exactly one of the sets. -/
def symmDiff (s t : CharSet) : CharSet := (s.diff t).union (t.diff s)

/-! ### Reading sets -/

/-- Cuts a text at its blanks and line feeds. -/
def words (s : List Char) : List (List Char) :=
  (s.foldr (fun c ws => if c = ' ' ∨ c = '\n' then [] :: ws else (c :: ws.head?.getD []) :: ws.tail)
    [[]]).filter (· ≠ [])

/-- Every code point, or every second one, from one to another. -/
def spread (first last step : Nat) : List (Nat × Nat) :=
  if step ≤ 1 then [(first, last)]
  else (List.range ((last - first) / step + 1)).map fun i => (first + step * i, first + step * i)

/-- Splits a word at the first occurrence of a character. -/
def splitAt (c : Char) (s : List Char) : List Char × List Char :=
  (s.takeWhile (· ≠ c), (s.dropWhile (· ≠ c)).drop 1)

/-- Reads `A`, `A-B` or `A-B/2`: a code point, a range, or every second code point of a range. -/
def spanOfWord (w : List Char) : Nat × Nat × Nat :=
  let (span, step) := splitAt '/' w
  let (a, b) := splitAt '-' span
  let first := (Text.hexDigits? a).getD 0
  (first, (Text.hexDigits? b).getD first, (Text.hexDigits? step).getD 1)

/-- Reads the spans of a table. -/
def ofTable (s : String) : CharSet :=
  ⟨(words s.toList).flatMap fun w => let (a, b, n) := spanOfWord w; spread a b n⟩

example : (ofTable "41-43 61-65/2").ranges =
    [(0x41, 0x43), (0x61, 0x61), (0x63, 0x63), (0x65, 0x65)] := by
  decide

end CharSet

/-- A set of characters in a table, under its names in lower case without separators. -/
structure NamedTable where
  names : List String
  table : String

/-- The set with one of the names. -/
def tableSet? (ts : List NamedTable) (name : String) : Option CharSet :=
  (ts.find? (·.names.contains name)).map fun t => .ofTable t.table

/-- The characters of all the sets with the given names. -/
def tableUnion (ts : List NamedTable) (names : List String) : CharSet :=
  .unions (names.filterMap (tableSet? ts))

end BimAudit.Unicode
