import BimAudit.Regex.Basic
import BimAudit.Text.Utf8
import BimAudit.Total

/-!
# The size of regular expressions

An expression is refused if an automaton for it would take too much memory. There are two, which
read the bytes of a text forwards and backwards, and only the first one marks where groups begin and
end. Repetitions are written out in them as often as they may be needed, so short patterns can be
large. A state takes 32 bytes, a branch of a state 4, and a range of bytes within a state 8.

* `Regex.size`: the size of an expression in bytes, as a part of an automaton.
* `Regex.fits`: neither automaton is too large.
-/

namespace BimAudit.Regex

open Unicode (CharSet)

/-- The direction in which an automaton reads. -/
inductive Direction where
  | forwards
  | backwards
deriving DecidableEq

/-- What a state takes. -/
def stateSize : Nat := 32

/-- What a branch of a state takes. -/
def branchSize : Nat := 4

/-- What a range of bytes within a state takes. -/
def spanSize : Nat := 8

/-- A state from which there are two ways. -/
def forkSize : Nat := stateSize + 2 * branchSize

/-! ### Sets -/

/-- The code points that are no characters. -/
def surrogates : CharSet := ⟨[(0xD800, 0xDFFF)]⟩

/-- The characters of a set in ascending ranges that are apart from each other. -/
def charRanges (s : CharSet) : List (Nat × Nat) :=
  match s.ranges with
  | [(a, b)] => if a = b then [(a, b)] else (s.diff surrogates).ranges
  | _ => (s.diff surrogates).ranges

/-- The set is a single character. -/
def isSingle (s : CharSet) : Bool :=
  match charRanges s with
  | [(a, b)] => a = b
  | _ => false

section Beginnings

variable {α : Type} [DecidableEq α]

/-- The length of the longest common beginning. -/
def commonLength : List α → List α → Nat
  | a :: r, b :: s => if a = b then commonLength r s + 1 else 0
  | _, _ => 0

/-- The number of different beginnings that sorted lists have, where `last` came before them. The
empty one does not count. -/
def beginnings (last : List α) : List (List α) → Nat
  | [] => 0
  | l :: ls => l.length - commonLength last l + beginnings l ls

/-- The different heads of sorted lists, each with the tails behind it. -/
def behindHeads : List (List α) → List (α × List (List α))
  | [] => []
  | [] :: ls => behindHeads ls
  | (a :: l) :: ls =>
    match behindHeads ls with
    | (b, tails) :: rest =>
      if a = b then (b, l :: tails) :: rest else (a, [l]) :: (b, tails) :: rest
    | [] => [(a, [l])]

/-- What may follow the beginnings of sorted lists, up to a length of the beginnings. -/
def remainders : Nat → List (List α) → List (List (List α))
  | 0, _ => []
  | n + 1, ls => ls :: (behindHeads ls).flatMap fun b => remainders n b.2

end Beginnings

/-- The size of a set of which the characters are written in some ranges of bytes. Read forwards,
ranges share a state where the same bytes may follow; read backwards, they are branches of one state
and those that begin alike share their beginning. -/
def spansSize (d : Direction) (spans : List (List (Nat × Nat))) : Nat :=
  match d with
  | .forwards =>
    -- no character has more than four bytes
    let states := (((remainders 4 spans).map behindHeads).filter (!·.isEmpty)).eraseDups
    stateSize + total (fun s => stateSize + spanSize * s.length) states
  | .backwards => 2 * stateSize + branchSize * spans.length + stateSize * beginnings [] spans

/-- The size of a set. One character is written byte by byte; a set within ASCII is one state. -/
def setSize (d : Direction) (s : CharSet) : Nat :=
  let ranges := charRanges s
  if isSingle s then
    stateSize * (ranges.flatMap fun r => (Text.byteSpans r.1 r.1).flatten).length
  else if ranges.all fun r => r.2 < 0x80 then 2 * stateSize + spanSize * ranges.length
  else spansSize d (ranges.flatMap fun r => Text.byteSpans r.1 r.2)

/-- The characters of alternatives that are all single characters, or all sets of another number of
characters. -/
def union? (single : Bool) : Regex → Option CharSet
  | set s => if isSingle s = single then some s else none
  | either r s => do return (← union? single r).union (← union? single s)
  | _ => none

/-! ### Expressions -/

/-- The expression matches the empty text. -/
def matchesEmpty : Regex → Bool
  | empty | look _ => true
  | set s => (charRanges s).isEmpty
  | concat r s => r.matchesEmpty && s.matchesEmpty
  | either r s => r.matchesEmpty || s.matchesEmpty
  | repeated r lo _ => lo = 0 || r.matchesEmpty
  | capture r => r.matchesEmpty

/-- The expression matches nothing but the empty text. -/
def matchesEmptyOnly : Regex → Bool
  | empty | look _ => true
  | set _ => false
  | concat r s | either r s => r.matchesEmptyOnly && s.matchesEmptyOnly
  | repeated r _ hi => hi = some 0 || r.matchesEmptyOnly
  | capture r => r.matchesEmptyOnly

/-- The expression is as good as the empty one, and it is left out of a sequence. -/
def isEmpty : Regex → Bool
  | empty => true
  | concat r s => r.isEmpty && s.isEmpty
  | repeated r lo hi => hi = some 0 || (0 < lo && r.isEmpty)
  | set _ | look _ | either .. | capture _ => false

/-- The size of a repetition of something of size `n`: as many copies as there may be, with a state
to branch from for each one that may be left out. -/
def repeatedSize (matchesEmpty : Bool) (n lo : Nat) : Option Nat → Nat
  | none =>
    max 1 lo * n + forkSize + (if lo = 0 && matchesEmpty then forkSize + stateSize else 0)
  | some hi =>
    if hi = lo then lo * n
    else if hi = 1 then n + forkSize + stateSize
    else hi * n + (hi - lo) * forkSize + (if lo = 0 then 2 else 1) * stateSize

/-- The size of an expression by itself, and as one of several alternatives. -/
def sizes (d : Direction) : Regex → Nat × Nat
  | empty | look _ => alone stateSize
  | set s => alone (setSize d s)
  | concat r s =>
    if r.isEmpty then s.sizes d
    else if s.isEmpty then r.sizes d
    else alone ((r.sizes d).1 + (s.sizes d).1)
  | either r s =>
    match (union? true (either r s)).or (union? false (either r s)) with
    | some u => alone (setSize d u)
    | none =>
      let branches := (r.sizes d).2 + (s.sizes d).2
      (2 * stateSize + branches, branches)
  | repeated r lo hi =>
    if hi = some 0 then alone stateSize
    -- repeating what matches the empty text only makes no difference after the first time
    else if r.matchesEmptyOnly then
      alone (repeatedSize r.matchesEmpty (r.sizes d).1 (min lo 1) (some 1))
    else alone (repeatedSize r.matchesEmpty (r.sizes d).1 lo hi)
  | capture r =>
    match d with
    | .forwards => alone ((r.sizes d).1 + 2 * stateSize)
    | .backwards => alone (r.sizes d).1
where
  /-- The sizes of an expression that is not a choice between others. -/
  alone (n : Nat) : Nat × Nat := (n, n + branchSize)

/-- The size of an expression. -/
def size (d : Direction) (r : Regex) : Nat := (r.sizes d).1

/-- An automaton that reads the text finds matches at the place only where it begins to read. -/
def isAnchored (d : Direction) : Regex → Bool
  | look .textStart => d = .forwards
  | look .textEnd => d = .backwards
  | empty | set _ | look _ => false
  | concat r s =>
    match d with
    | .forwards => r.isAnchored d || (r.matchesEmptyOnly && s.isAnchored d)
    | .backwards => s.isAnchored d || (s.matchesEmptyOnly && r.isAnchored d)
  | either r s => r.isAnchored d && s.isAnchored d
  | repeated r lo _ => 0 < lo && r.isAnchored d
  | capture r => r.isAnchored d

/-- The size of an automaton. In front of the expression it skips bytes, unless matches are to be
found at one place only, and the whole match is a group as well. -/
def automatonSize (d : Direction) (r : Regex) : Nat :=
  let skip := if r.isAnchored d then stateSize else forkSize + 2 * stateSize + spanSize
  skip + (capture r).size d + stateSize

/-- The largest size of an automaton. -/
def maxSize : Nat := 10 * 1024 * 1024

/-- Neither automaton is too large. -/
def fits (r : Regex) : Bool :=
  r.automatonSize .forwards ≤ maxSize && r.automatonSize .backwards ≤ maxSize

end BimAudit.Regex
