import BimAudit.Unicode.Property

/-!
# Regular expressions

A regular expression matches pieces of a text. `Regex.advance` follows it through a whole text at
once: of the places between the characters it takes those where a match may begin to those where
one may end. A text matches if some match begins anywhere.
-/

namespace BimAudit

open Unicode (CharSet)

/-- A condition on a place in a text. -/
inductive Regex.Look where
  | textStart
  | textEnd
  /-- Behind a line feed or at the start. -/
  | lineStart
  /-- Before a line feed or at the end. -/
  | lineEnd
  /-- Behind a line end or at the start; a carriage return with a line feed is one line end. -/
  | lineStartCrLf
  /-- Before a line end or at the end. -/
  | lineEndCrLf
  /-- Between a word character and another character, in either order. -/
  | wordBoundary (unicode : Bool)
  | notWordBoundary (unicode : Bool)
  /-- Before a word character that follows another character. -/
  | wordStart (unicode : Bool)
  | wordEnd (unicode : Bool)
  /-- Not behind a word character. -/
  | wordStartHalf (unicode : Bool)
  /-- Not before a word character. -/
  | wordEndHalf (unicode : Bool)

/-- A regular expression. -/
inductive Regex where
  | empty
  | set (s : CharSet)
  | look (l : Regex.Look)
  | concat (r s : Regex)
  | either (r s : Regex)
  /-- At least `min` and at most `max` matches in a row. -/
  | repeated (r : Regex) (min : Nat) (max : Option Nat)
  /-- A group that is told where it matches. -/
  | capture (r : Regex)

namespace Regex

/-- A place between two characters. -/
structure Place where
  before : Option Char
  after : Option Char

/-- The places of a text behind a character. -/
def placesFrom (before : Option Char) : List Char → List Place
  | [] => [⟨before, none⟩]
  | c :: r => ⟨before, some c⟩ :: placesFrom (some c) r

/-- The places of a text, one more than it has characters. -/
def places (s : List Char) : List Place := placesFrom none s

/-- The word characters of ASCII. -/
def asciiWordChars : CharSet := .ofTable "30-39 41-5A 5F 61-7A"

/-- There is a word character. -/
def isWord (unicode : Bool) (c : Option Char) : Bool :=
  c.any (if unicode then Unicode.wordChars else asciiWordChars).contains

/-- The condition holds at a place. -/
def Look.holds (p : Place) : Look → Bool
  | textStart => p.before.isNone
  | textEnd => p.after.isNone
  | lineStart => p.before.all (· = '\n')
  | lineEnd => p.after.all (· = '\n')
  | lineStartCrLf => p.before.all (· = '\n') || (p.before = some '\r' && p.after ≠ some '\n')
  | lineEndCrLf => p.after.all (· = '\r') || (p.after = some '\n' && p.before ≠ some '\r')
  | wordBoundary u => isWord u p.before != isWord u p.after
  | notWordBoundary u => isWord u p.before == isWord u p.after
  | wordStart u => !isWord u p.before && isWord u p.after
  | wordEnd u => isWord u p.before && !isWord u p.after
  | wordStartHalf u => !isWord u p.before
  | wordEndHalf u => !isWord u p.after

/-! ### Following an expression through a text -/

/-- Applies a step a number of times. -/
def rounds {α : Type} (step : α → α) : Nat → α → α
  | 0, m => m
  | n + 1, m => rounds step n (step m)

/-- Applies a step a number of times, or until it changes nothing. -/
def settle {α : Type} [DecidableEq α] (step : α → α) : Nat → α → α
  | 0, m => m
  | n + 1, m => if step m = m then m else settle step n (step m)

/-- The marks of either list. -/
def orMarks (m n : List Bool) : List Bool := m.zipWith (· || ·) n

/-- Moves the marks on the places, each before a character of the set, to the next place. -/
def consume (s : CharSet) (ps : List Place) (m : List Bool) : List Bool :=
  false :: (ps.zipWith (fun p b => b && p.after.any s.contains) m).dropLast

/-- Takes the marked places of a text to those where a match that begins at one of them may end.

More rounds of a repetition than there are places add nothing: among so many matches in a row there
is an empty one. -/
def advance (ps : List Place) : Regex → List Bool → List Bool
  | empty, m => m
  | set s, m => consume s ps m
  | look l, m => ps.zipWith (fun p b => b && l.holds p) m
  | concat r s, m => advance ps s (advance ps r m)
  | either r s, m => orMarks (advance ps r m) (advance ps s m)
  | repeated r lo hi, m =>
    -- the rounds that may be left out
    let optional := match hi with
      | some hi => min (hi - lo) ps.length
      | none => ps.length
    settle (fun m => orMarks m (advance ps r m)) optional
      (rounds (advance ps r) (min lo ps.length) m)
  | capture r, m => advance ps r m

/-- The expression matches a piece of the text. -/
def isMatch (r : Regex) (s : List Char) : Bool :=
  let ps := places s
  (advance ps r (ps.map fun _ => true)).any id

end Regex

end BimAudit
