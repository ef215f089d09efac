import BimAudit.Regex.Class
import BimAudit.Regex.Size

/-!
# Reading patterns

A pattern is read from left to right over a stack of open groups. Flags hold to the end of the group
that sets them. Patterns without a meaning have none: unbalanced brackets, repetitions of nothing,
references to groups, conditions on surrounding text, unknown escapes and names, nesting too deep,
and expressions whose repetitions written out would take too much memory.

* `Regex.ofPattern?` is the reader.
-/

namespace BimAudit.Regex

/-- The deepest nesting of a pattern. -/
def maxDepth : Nat := 250

/-- The largest bound of a repetition. -/
def countLimit : Nat := Nat.pow 2 32

/-! ### Repetitions -/

/-- Reads a count with blanks around it; `none` if there are no digits or too large a number. -/
def Flags.count (f : Flags) (s : List Char) : Option Nat × List Char :=
  let (ds, r) := f.digitRun (s.dropWhile Text.isBlank)
  ((Text.digits? ds).filter (· < countLimit), f.skip (r.dropWhile Text.isBlank))

/-- A question mark behind a repetition asks for short matches, which makes no difference here. -/
def dropLazy : List Char → List Char
  | '?' :: r => r
  | s => s

/-- Reads the bounds of a repetition behind an opening brace. -/
def Flags.bounds? (f : Flags) (s : List Char) : Option ((Nat × Option Nat) × List Char) := do
  let (first, s) := f.count (f.skip s)
  let n ← first
  match s with
  | '\x7d' :: r => return ((n, some n), dropLazy (f.skip r))
  | ',' :: r =>
    match f.skip r with
    | '\x7d' :: r => return ((n, none), dropLazy (f.skip r))
    | r =>
      let (last, r) := f.count r
      let m ← last
      match r with
      | '\x7d' :: r => if n ≤ m then return ((n, some m), dropLazy (f.skip r)) else none
      | _ => none
  | _ => none

/-! ### Groups -/

/-- A part of a sequence with how deep it nests. Flags on their own are a part that matches the
empty text and cannot be repeated. -/
structure Part where
  regex : Regex
  depth : Nat := 0
  repeatable : Bool := true

/-- The parts one after the other, given backwards. -/
def Part.sequence : List Part → Part
  | [] => ⟨.empty, 0, true⟩
  | [p] => p
  | ps => ⟨ps.tail.foldl (fun r p => .concat p.regex r) ((ps.head?.map (·.regex)).getD .empty),
      (ps.map (·.depth)).foldl max 0 + 1, true⟩

/-- One of the parts, given backwards. -/
def Part.choice : List Part → Part
  | [] => ⟨.empty, 0, true⟩
  | [p] => p
  | ps => ⟨ps.tail.foldl (fun r p => .either p.regex r) ((ps.head?.map (·.regex)).getD .empty),
      (ps.map (·.depth)).foldl max 0 + 1, true⟩

/-- An open group: its finished alternatives and the parts of the current one, both backwards, the
flags that hold again behind it, and whether it is told where it matches. -/
structure Group where
  branches : List Part := []
  parts : List Part := []
  flagsAfter : Flags
  captures : Bool := false

/-- Adds a part. -/
def Group.push (g : Group) (p : Part) : Group := { g with parts := p :: g.parts }

/-- Begins another alternative. -/
def Group.branch (g : Group) : Group :=
  { g with branches := Part.sequence g.parts :: g.branches, parts := [] }

/-- What stands in the group as one part. -/
def Group.content (g : Group) : Part := Part.choice (Part.sequence g.parts :: g.branches)

/-- The group as one part, with its brackets. -/
def Group.close (g : Group) : Part :=
  let p := g.content
  ⟨if g.captures then .capture p.regex else p.regex, p.depth + 1, true⟩

/-- Repeats the last part. -/
def Group.repeatLast? (g : Group) (lo : Nat) (hi : Option Nat) : Option Group :=
  match g.parts with
  | p :: ps =>
    if p.repeatable then some { g with parts := ⟨.repeated p.regex lo hi, p.depth + 1, true⟩ :: ps }
    else none
  | [] => none

/-- A character of a group name. -/
def isNameChar (first : Bool) (c : Char) : Bool :=
  c = '_' || Unicode.alphabetic.contains c ||
    (!first &&
      (c = '.' || c = '[' || c = ']' || (Unicode.categories ["nd", "nl", "no"]).contains c))

/-- Reads the name of a group up to its closing angle bracket. -/
def groupName? (s : List Char) : Option (List Char × List Char) :=
  let name := s.takeWhile (· ≠ '>')
  match s.dropWhile (· ≠ '>') with
  | '>' :: r =>
    match name with
    | c :: cs => if isNameChar true c ∧ cs.all (isNameChar false) then some (name, r) else none
    | [] => none
  | _ => none

/-- Sets the flag with a letter. -/
def Flags.put? (f : Flags) (on : Bool) (c : Char) : Option Flags :=
  match c with
  | 'i' => some { f with ignoreCase := on }
  | 'm' => some { f with multiLine := on }
  | 's' => some { f with dotAll := on }
  | 'R' => some { f with crlf := on }
  | 'u' => some { f with unicode := on }
  | 'x' => some { f with verbose := on }
  | 'U' => some f
  | _ => none

/-- Sets flags by a list of letters, where a hyphen turns off the flags behind it. No letter and no
hyphen may come twice, and letters have to follow a hyphen. -/
def Flags.ofLetters? (f : Flags) (cs : List Char) : Option Flags :=
  if cs.getLast? = some '-' ∨ !cs.Nodup then none
  else
    let put (p : Flags × Bool) (c : Char) : Option (Flags × Bool) :=
      if c = '-' then some (p.1, false) else (p.1.put? p.2 c).map (·, p.2)
    (cs.foldlM put (f, true)).map (·.1)

/-- What an opening bracket begins. -/
inductive Opening where
  /-- A group with the flags inside it, and its name if it has one. -/
  | group (inside : Flags) (captures : Bool) (name : Option (List Char))
  /-- Flags for the rest of the group around. -/
  | flags (f : Flags)

/-- Reads what follows an opening bracket. -/
def Flags.opening? (f : Flags) (s : List Char) : Option (Opening × List Char) :=
  let named (r : List Char) := (groupName? r).map fun (name, r) => (.group f true (some name), r)
  match f.skip s with
  | '?' :: 'P' :: '<' :: r => named r
  | '?' :: '<' :: c :: r => if c = '=' ∨ c = '!' then none else named (c :: r)
  | '?' :: r =>
    let isEnd (c : Char) : Bool := c = ':' || c = ')'
    let letters := r.takeWhile (!isEnd ·)
    match r.dropWhile (!isEnd ·) with
    | c :: rest => do
      let g ← f.ofLetters? letters
      if c = ':' then return (.group g false none, rest)
      else if letters = [] then none
      else return (.flags g, rest)
    | [] => none
  | s => some (.group f true none, s)

/-! ### Patterns -/

/-- Where the reader is: the innermost group, the groups around it, the flags in force, and the
names given so far. -/
structure Reader where
  group : Group
  outer : List Group := []
  flags : Flags
  names : List (List Char) := []

namespace Reader

/-- Adds a part to the innermost group. -/
def push (r : Reader) (x : Regex) (depth : Nat) : Reader :=
  { r with group := r.group.push ⟨x, depth, true⟩ }

/-- Any character, as the flags count line ends. Without Unicode it might be a byte that is no
character, so there is none. -/
def dot? (f : Flags) : Option Regex :=
  if !f.unicode then none
  else if f.dotAll then some (.set .full)
  else if f.crlf then some (.set (Unicode.CharSet.ofChars ['\n', '\r']).complement)
  else some (.set (Unicode.CharSet.single '\n').complement)

/-- The start of a line or of the text. -/
def caret (f : Flags) : Look :=
  if !f.multiLine then .textStart else if f.crlf then .lineStartCrLf else .lineStart

/-- The end of a line or of the text. -/
def dollar (f : Flags) : Look :=
  if !f.multiLine then .textEnd else if f.crlf then .lineEndCrLf else .lineEnd

/-- Takes an opening bracket. -/
def enter? (r : Reader) (s : List Char) : Option (Reader × List Char) := do
  let (what, s) ← r.flags.opening? s
  match what with
  | .flags f => return ({ r with flags := f, group := r.group.push ⟨.empty, 0, false⟩ }, s)
  | .group f captures name =>
    if name.any r.names.contains then none
    else
      -- the flags outside of the group come back when it is closed
      return (⟨⟨[], [], r.flags, captures⟩, r.group :: r.outer, f, name.toList ++ r.names⟩, s)

/-- Takes a closing bracket. -/
def leave? (r : Reader) : Option Reader :=
  match r.outer with
  | [] => none
  | g :: outer =>
    some { r with
      group := g.push r.group.close
      outer
      flags := r.group.flagsAfter }

/-- Repeats the last part. -/
def repeatLast? (r : Reader) (lo : Nat) (hi : Option Nat) : Option Reader :=
  (r.group.repeatLast? lo hi).map fun g => { r with group := g }

/-- Takes one part of the pattern, whose first character is given with the rest. -/
def take? (r : Reader) (c : Char) (s : List Char) : Option (Reader × List Char) :=
  match c with
  | '(' => r.enter? s
  | ')' => r.leave?.map (·, s)
  | '|' => some ({ r with group := r.group.branch }, s)
  | '[' => (r.flags.class? s).map fun (part, s) => (r.push (.set part.set) part.depth, s)
  | '?' => (r.repeatLast? 0 (some 1)).map (·, dropLazy s)
  | '*' => (r.repeatLast? 0 none).map (·, dropLazy s)
  | '+' => (r.repeatLast? 1 none).map (·, dropLazy s)
  | '\x7b' => do
    let ((lo, hi), s) ← r.flags.bounds? s
    return (← r.repeatLast? lo hi, s)
  | '.' => (dot? r.flags).map fun x => (r.push x 0, s)
  | '^' => some (r.push (.look (caret r.flags)) 0, s)
  | '$' => some (r.push (.look (dollar r.flags)) 0, s)
  | '\\' => do
    let (atom, s) ← r.flags.escape? s
    let x ← match atom with
      | .literal c byte => (r.flags.literal? c byte).map .set
      | .set cs => some (.set cs)
      | .look l => some (.look l)
    return (r.push x 0, s)
  | c => (r.flags.literal? c false).map fun cs => (r.push (.set cs) 0, s)

/-- Takes parts until the pattern ends. -/
def run? : Nat → Reader → List Char → Option Reader
  | 0, _, _ => none
  | n + 1, r, s =>
    match r.flags.skip s with
    | [] => some r
    | c :: s =>
      match r.take? c s with
      | some (r, s) => run? n r s
      | none => none

end Reader

/-- The expression that a pattern means. -/
def ofPattern? (pattern : String) : Option Regex := do
  let s := pattern.toList
  let r ← Reader.run? (s.length + 1) ⟨⟨[], [], {}, false⟩, [], {}, []⟩ s
  let content := r.group.content
  if r.outer.isEmpty ∧ content.depth ≤ maxDepth ∧ content.regex.fits then some content.regex
  else none

end BimAudit.Regex
