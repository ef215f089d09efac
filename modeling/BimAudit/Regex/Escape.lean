import BimAudit.Regex.Basic
import BimAudit.Text.Ascii
import BimAudit.Text.Blank
import BimAudit.Text.CodePoint
import BimAudit.Unicode.Case
import BimAudit.Unicode.Lookup

/-!
# Flags and escapes of patterns

What a backslash and the characters behind it stand for, under the flags in force. In the verbose
layout blanks do not count and `#` begins a comment that goes to the end of the line.
-/

namespace BimAudit.Regex

open Unicode (CharSet)

/-- The flags in force at a place of a pattern. -/
structure Flags where
  ignoreCase : Bool := false
  multiLine : Bool := false
  dotAll : Bool := false
  crlf : Bool := false
  unicode : Bool := true
  verbose : Bool := false

/-! ### Blanks and comments -/

/-- Drops blanks and comments in front; the flag says that a comment is open. -/
def skipVerbose : Bool → List Char → List Char
  | _, [] => []
  | true, c :: r => skipVerbose (c ≠ '\n') r
  | false, c :: r =>
    if Text.isBlank c then skipVerbose false r
    else if c = '#' then skipVerbose true r
    else c :: r

theorem length_skipVerbose_le (b : Bool) (s : List Char) : (skipVerbose b s).length ≤ s.length := by
  induction s generalizing b with
  | nil => cases b <;> simp [skipVerbose]
  | cons c r ih =>
    cases b
    · rw [skipVerbose]
      split
      · exact Nat.le_succ_of_le (ih _)
      · split
        · exact Nat.le_succ_of_le (ih _)
        · exact Nat.le_refl _
    · rw [skipVerbose]
      exact Nat.le_succ_of_le (ih _)

/-- Drops what does not count in front of the next character. -/
def Flags.skip (f : Flags) (s : List Char) : List Char :=
  if f.verbose then skipVerbose false s else s

theorem Flags.length_skip_le (f : Flags) (s : List Char) : (f.skip s).length ≤ s.length := by
  unfold Flags.skip
  split
  · exact length_skipVerbose_le _ _
  · exact Nat.le_refl _

/-- The characters that count up to a closing brace, and what follows the brace. -/
def Flags.braced? (f : Flags) (s : List Char) : Option (List Char × List Char) :=
  match _h : f.skip s with
  | [] => none
  | c :: r =>
    if c = '\x7d' then some ([], r)
    else (f.braced? r).map fun (w, r) => (c :: w, r)
termination_by s.length
decreasing_by
  have := f.length_skip_le s
  rw [_h, List.length_cons] at this
  omega

/-- The run of digits in front, and what follows. -/
def Flags.digitRun (f : Flags) (s : List Char) : List Char × List Char :=
  match s with
  | [] => ([], [])
  | c :: r =>
    if Text.isDigit c then
      let (ds, r) := f.digitRun (f.skip r)
      (c :: ds, r)
    else ([], c :: r)
termination_by s.length
decreasing_by
  have := f.length_skip_le r
  simp only [List.length_cons]
  omega

/-! ### Atoms -/

/-- What may stand in a class as well as outside. -/
inductive Atom where
  /-- One character; the flag says that it was written as a byte. -/
  | literal (c : Char) (byte : Bool)
  | set (s : CharSet)
  | look (l : Look)

/-- The set with both cases of every ASCII letter in it. -/
def foldAscii (s : CharSet) : CharSet :=
  s.union (.ofChars ("abcdefghijklmnopqrstuvwxyz".toList.flatMap fun c =>
    if s.contains c || s.contains c.toUpper then [c, c.toUpper] else []))

/-- The set with every character that differs in case only, if the flags ignore case. -/
def Flags.foldSet (f : Flags) (s : CharSet) : CharSet :=
  if !f.ignoreCase then s
  else if f.unicode then s.fold
  else foldAscii s

/-- The set or its complement. Without Unicode a complement would have bytes that are no characters,
so there is none. -/
def Flags.negated? (f : Flags) (negated : Bool) (s : CharSet) : Option CharSet :=
  if !negated then some s
  else if f.unicode then some s.complement
  else none

/-- White space of ASCII, the vertical tab included. -/
def asciiSpaces : CharSet := .ofTable "9-D 20"

/-- The digits of ASCII. -/
def asciiDigits : CharSet := .ofTable "30-39"

/-- The class that a letter behind a backslash stands for; an upper-case letter negates it. -/
def Flags.letterClass? (f : Flags) (c : Char) : Option CharSet :=
  let pick (wide ascii : CharSet) := f.negated? c.isUpper (if f.unicode then wide else ascii)
  match c.toLower with
  | 'd' => pick Unicode.digits asciiDigits
  | 's' => pick Unicode.whiteSpace asciiSpaces
  | 'w' => pick Unicode.wordChars asciiWordChars
  | _ => none

/-- The class named behind `\\p` or `\\P`: a name alone, or a property and its value with one of the
marks `!=`, `:` and `=` between them. The marks all mean the same; only `\\P` negates. -/
def Flags.namedClass? (f : Flags) (negated : Bool) (name : List Char) : Option CharSet :=
  if !f.unicode then none
  else
    let valued (width i : Nat) := Unicode.valued? (name.take i) (name.drop (i + width))
    let found := match Text.position? ['!', '='] name with
      | some i => valued 2 i
      | none => match (Text.position? [':'] name).or (Text.position? ['='] name) with
        | some i => valued 1 i
        | none => Unicode.named? name
    found.bind fun s => f.negated? negated (f.foldSet s)

/-- The character with the code that the digits give. -/
def hexChar? (ds : List Char) : Option Char :=
  (Text.hexDigits? ds).bind Text.charOfCode?

/-- The characters that have a meaning in patterns, and may be escaped to lose it. -/
def isMeta (c : Char) : Bool := "\\.+*?()|[]\x7b\x7d^$#&-~".contains c

/-- A character that stands for itself behind a backslash. -/
def isEscapable (c : Char) : Bool :=
  isMeta c || (c.toNat < 0x80 && !c.isAlphanum && c ≠ '<' && c ≠ '>')

/-- Takes a number of digits in base sixteen off the front. -/
def Flags.hexRun? (f : Flags) : Nat → List Char → Option (List Char × List Char)
  | 0, s => some ([], s)
  | _ + 1, [] => none
  | n + 1, c :: r =>
    if (Text.hexDigit? c).isSome then (f.hexRun? n (f.skip r)).map fun (ds, r) => (c :: ds, r)
    else none

/-- Reads a character code: in braces, or of a fixed number of digits. -/
def Flags.code? (f : Flags) (digits : Nat) (s : List Char) : Option (Atom × List Char) :=
  match f.skip s with
  | '\x7b' :: r => do
    let (ds, r) ← f.braced? r
    return (.literal (← hexChar? ds) false, f.skip r)
  | s => do
    let (ds, r) ← f.hexRun? digits s
    return (.literal (← hexChar? ds) (digits = 2), r)

/-- Reads the name of a class: in braces, or of one letter. -/
def Flags.className? (f : Flags) (negated : Bool) (s : List Char) : Option (Atom × List Char) :=
  match f.skip s with
  | [] => none
  | '\x7b' :: r => do
    let (name, r) ← f.braced? r
    return (.set (← f.namedClass? negated name), r)
  | c :: r => do
    if c = '\\' then failure
    return (.set (← f.namedClass? negated [c]), f.skip r)

/-- A character of the names of word boundaries. -/
def isBoundaryChar (c : Char) : Bool := c.isAlpha || c = '-'

/-- Reads what follows `\\b`: the name of a word boundary in braces, or nothing. Braces around
something else are left for a count. -/
def Flags.boundary? (f : Flags) (s : List Char) : Option (Atom × List Char) :=
  let plain : Atom := .look (.wordBoundary f.unicode)
  match s with
  | '\x7b' :: r =>
    match f.skip r with
    | [] => none
    | c :: _ =>
      if !isBoundaryChar c then some (plain, s)
      else do
        let (name, r) ← f.braced? r
        let look ← match String.ofList name with
          | "start" => some (Look.wordStart f.unicode)
          | "end" => some (.wordEnd f.unicode)
          | "start-half" => some (.wordStartHalf f.unicode)
          | "end-half" => some (.wordEndHalf f.unicode)
          | _ => none
        return (.look look, r)
  | s => some (plain, s)

/-- Reads what follows a backslash. -/
def Flags.escape? (f : Flags) (s : List Char) : Option (Atom × List Char) :=
  match s with
  | [] => none
  | c :: r =>
    let literal (c : Char) : Option (Atom × List Char) := some (.literal c false, r)
    if isEscapable c then literal c
    else match c with
      | 'x' => f.code? 2 r
      | 'u' => f.code? 4 r
      | 'U' => f.code? 8 r
      | 'p' => f.className? false r
      | 'P' => f.className? true r
      | 'a' => literal '\x07'
      | 'f' => literal '\x0c'
      | 't' => literal '\t'
      | 'n' => literal '\n'
      | 'r' => literal '\r'
      | 'v' => literal '\x0b'
      | 'A' => some (.look .textStart, r)
      | 'z' => some (.look .textEnd, r)
      | 'b' => f.boundary? r
      | 'B' => some (.look (.notWordBoundary f.unicode), r)
      | '<' => some (.look (.wordStart f.unicode), r)
      | '>' => some (.look (.wordEnd f.unicode), r)
      | c => (f.letterClass? c).map (.set ·, r)

/-- The set of one character, as it stands outside of a class. A byte beyond ASCII is no character
when Unicode is off. -/
def Flags.literal? (f : Flags) (c : Char) (byte : Bool) : Option CharSet :=
  if !f.unicode && byte && 0x7F < c.toNat then none else some (f.foldSet (.single c))

end BimAudit.Regex
