import BimAudit.Regex.Escape

/-!
# Bracketed classes of patterns

A class in brackets is a union of characters, ranges, escapes, named ASCII classes and classes in
brackets of their own. Unions can be joined by `&&` (both), `--` (the first without the second) and
`~~` (exactly one of them), which group to the left. A caret behind the opening bracket negates.
-/

namespace BimAudit.Regex

open Unicode (CharSet)

/-- What joins two unions of a class. -/
inductive SetOp where
  | inter
  | diff
  | symmDiff

/-- The sets joined. -/
def SetOp.apply (s t : CharSet) : SetOp → CharSet
  | inter => s.inter t
  | diff => s.diff t
  | symmDiff => s.symmDiff t

/-- A part of a class with how deep it nests. -/
structure ClassPart where
  set : CharSet
  depth : Nat := 0

/-- The union of some parts. -/
def ClassPart.union : List ClassPart → ClassPart
  | [] => ⟨.empty, 0⟩
  | [p] => p
  | ps => ⟨.unions (ps.map (·.set)), (ps.map (·.depth)).foldl max 0 + 1⟩

/-- An open bracket. -/
structure Bracket where
  negated : Bool
  /-- What stands before the last joining mark. -/
  left : Option (SetOp × ClassPart) := none
  /-- The parts behind it, the last one first. -/
  parts : List ClassPart

namespace Bracket

/-- Adds a part. -/
def push (b : Bracket) (p : ClassPart) : Bracket := { b with parts := p :: b.parts }

/-- What the bracket holds so far. Joined sets are folded before they are joined. -/
def content (f : Flags) (b : Bracket) : ClassPart :=
  let right := ClassPart.union b.parts
  match b.left with
  | none => right
  | some (op, l) => ⟨op.apply (f.foldSet l.set) (f.foldSet right.set), max l.depth right.depth + 1⟩

/-- Begins a new union behind a joining mark. -/
def join (f : Flags) (op : SetOp) (b : Bracket) : Bracket :=
  { b with left := some (op, b.content f), parts := [] }

/-- The class that the bracket is once it is closed; case is folded before negation. -/
def close? (f : Flags) (b : Bracket) : Option ClassPart :=
  let c := b.content f
  (f.negated? b.negated (f.foldSet c.set)).map (⟨·, c.depth + 1⟩)

end Bracket

/-- The hyphens in front, and what follows. -/
def Flags.hyphens (f : Flags) (s : List Char) : Nat × List Char :=
  match s with
  | [] => (0, [])
  | c :: r =>
    if c = '-' then
      let (n, r) := f.hyphens (f.skip r)
      (n + 1, r)
    else (0, c :: r)
termination_by s.length
decreasing_by
  have := f.length_skip_le r
  simp only [List.length_cons]
  omega

/-- Reads what may follow an opening bracket only: a caret, hyphens, and a closing bracket that
stands for itself. Something has to follow. -/
def Flags.open? (f : Flags) (s : List Char) : Option (Bracket × List Char) :=
  let (negated, s) := match f.skip s with
    | '^' :: r => (true, f.skip r)
    | s => (false, s)
  let (n, s) := f.hyphens s
  let parts : List ClassPart := List.replicate n ⟨.single '-', 0⟩
  match s with
  | [] => none
  | ']' :: r =>
    if n = 0 then
      if f.skip r = [] then none else some (⟨negated, none, [⟨.single ']', 0⟩]⟩, f.skip r)
    else some (⟨negated, none, parts⟩, s)
  | s => some (⟨negated, none, parts⟩, s)

/-- The named ASCII classes. -/
def asciiClass? : String → Option CharSet
  | "alnum" => some (.ofTable "30-39 41-5A 61-7A")
  | "alpha" => some (.ofTable "41-5A 61-7A")
  | "ascii" => some .ascii
  | "blank" => some (.ofTable "9 20")
  | "cntrl" => some (.ofTable "0-1F 7F")
  | "digit" => some asciiDigits
  | "graph" => some (.ofTable "21-7E")
  | "lower" => some (.ofTable "61-7A")
  | "print" => some (.ofTable "20-7E")
  | "punct" => some (.ofTable "21-2F 3A-40 5B-60 7B-7E")
  | "space" => some asciiSpaces
  | "upper" => some (.ofTable "41-5A")
  | "word" => some asciiWordChars
  | "xdigit" => some (.ofTable "30-39 41-46 61-66")
  | _ => none

/-- Reads a named ASCII class such as `:alpha:]` behind an opening bracket. What does not have this
form is an ordinary bracket; the result is then `none`. -/
def asciiClassName? (s : List Char) : Option (CharSet × Bool × List Char) :=
  match s with
  | ':' :: r =>
    let (negated, r) := match r with
      | '^' :: r => (true, r)
      | r => (false, r)
    match r.dropWhile (· ≠ ':') with
    | ':' :: ']' :: rest =>
      (asciiClass? (String.ofList (r.takeWhile (· ≠ ':')))).map (·, negated, rest)
    | _ => none
  | _ => none

/-- The characters of an atom inside a class. Conditions on places have none, and beyond ASCII there
are none when Unicode is off. -/
def Flags.atomSet? (f : Flags) : Atom → Option CharSet
  | .literal c _ => if !f.unicode && 0x7F < c.toNat then none else some (.single c)
  | .set s => some s
  | .look _ => none

/-- Reads one atom inside a class. -/
def Flags.classAtom? (f : Flags) : List Char → Option (Atom × List Char)
  | [] => none
  | c :: r => if c = '\\' then f.escape? r else some (.literal c false, r)

/-- The next character behind a hyphen. In the verbose layout blanks and one comment mark are passed
over. -/
def Flags.behindHyphen? (f : Flags) (s : List Char) : Option Char :=
  if f.verbose then
    match s.dropWhile Text.isBlank with
    | '#' :: r => (r.dropWhile Text.isBlank).head?
    | s => s.head?
  else s.head?

/-- Reads an atom or a range of characters. -/
def Flags.classRange? (f : Flags) (s : List Char) : Option (CharSet × List Char) := do
  let (a, s) ← f.classAtom? s
  match f.skip s with
  | [] => none
  | '-' :: r =>
    let next := f.behindHyphen? r
    -- a hyphen before the closing bracket or an operator makes no range
    if next = some ']' ∨ next = some '-' then return (← f.atomSet? a, '-' :: r)
    else
      let (b, r) ← f.classAtom? (f.skip r)
      match a, b with
      | .literal c _, .literal d _ =>
        if c ≤ d ∧ (f.atomSet? a).isSome ∧ (f.atomSet? b).isSome then return (.range c d, r)
        else none
      | _, _ => none
  | s => return (← f.atomSet? a, s)

/-- One move of the reader inside brackets, the innermost first and the others as a list. The class
is the answer once the outermost bracket is closed. -/
def Flags.classMove (f : Flags) (b : Bracket) (outer : List Bracket) (s : List Char) :
    Option (Sum (ClassPart × List Char) (Bracket × List Bracket × List Char)) :=
  match f.skip s with
  | [] => none
  | '[' :: r =>
    match asciiClassName? r with
    | some (named, negated, r) =>
      (f.negated? negated (f.foldSet named)).map fun cs => .inr (b.push ⟨cs, 0⟩, outer, r)
    | none => (f.open? r).map fun (inner, r) => .inr (inner, b :: outer, r)
  | ']' :: r => do
    let part ← b.close? f
    match outer with
    | [] => return .inl (part, r)
    | b :: outer => return .inr (b.push part, outer, r)
  | '&' :: '&' :: r => some (.inr (b.join f .inter, outer, r))
  | '-' :: '-' :: r => some (.inr (b.join f .diff, outer, r))
  | '~' :: '~' :: r => some (.inr (b.join f .symmDiff, outer, r))
  | s => (f.classRange? s).map fun (cs, r) => .inr (b.push ⟨cs, 0⟩, outer, r)

/-- Moves on until the outermost bracket is closed. -/
def Flags.classRun (f : Flags) :
    Nat → Bracket → List Bracket → List Char → Option (ClassPart × List Char)
  | 0, _, _, _ => none
  | n + 1, b, outer, s =>
    match f.classMove b outer s with
    | none => none
    | some (.inl answer) => some answer
    | some (.inr (b, outer, s)) => f.classRun n b outer s

/-- Reads a class behind its opening bracket. Every move takes at least one character, so as many
moves as there are characters are enough. -/
def Flags.class? (f : Flags) (s : List Char) : Option (ClassPart × List Char) := do
  let (b, s) ← f.open? s
  let (part, r) ← f.classRun (s.length + 1) b [] s
  return ({ part with set := part.set.normal }, r)

end BimAudit.Regex
