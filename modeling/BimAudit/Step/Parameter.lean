import BimAudit.Step.Encoding
import BimAudit.Text.Blank

/-!
# Parameter texts

A parameter text is read in three ways, each keeping track of quotes: cut at its outer commas
(`splitParameters`), searched for string literals (`literals`) and searched for references to other
records (`references`). Inside a literal a doubled apostrophe is part of the text.
-/

namespace BimAudit.Step

/-- Where a reader stands: how many parentheses are open, and whether it is inside a literal. -/
structure Nesting where
  depth : Int := 0
  quoted : Bool := false
deriving DecidableEq, Repr

/-- The position behind one more character. A doubled apostrophe leaves the literal and enters it
again, so it needs no case of its own. -/
def Nesting.next (n : Nesting) (c : Char) : Nesting :=
  if c = '\'' then { n with quoted := !n.quoted }
  else if n.quoted then n
  else if c = '(' then { n with depth := n.depth + 1 }
  else if c = ')' then { n with depth := n.depth - 1 }
  else n

/-- A comma here separates two parameters. -/
def Nesting.splits (n : Nesting) (c : Char) : Bool := c = ',' && !n.quoted && n.depth = 0

/-- Puts a character in front of the first piece. -/
def pushFront (c : Char) : List (List Char) → List (List Char)
  | [] => [[c]]
  | p :: ps => (c :: p) :: ps

/-- Cuts at the outer commas, starting from a given position. -/
def pieces : Nesting → List Char → List (List Char)
  | _, [] => [[]]
  | n, c :: r => if n.splits c then [] :: pieces n r else pushFront c (pieces (n.next c) r)

/-- The parameters of a parameter text, without the blanks around them. A blank text has none. -/
def splitParameters (s : List Char) : List (List Char) :=
  match (pieces {} s).map Text.trim with
  | [[]] => []
  | ps => ps

/-- What comes before the apostrophe that ends a literal, and what comes behind it. -/
def splitLiteral : List Char → Option (List Char × List Char)
  | [] => none
  | '\'' :: '\'' :: r => (splitLiteral r).map fun (body, rest) => ('\'' :: '\'' :: body, rest)
  | c :: r =>
    if c = '\'' then some ([], r)
    else (splitLiteral r).map fun (body, rest) => (c :: body, rest)

theorem length_splitLiteral_lt {s body rest : List Char} (h : splitLiteral s = some (body, rest)) :
    rest.length < s.length := by
  fun_induction splitLiteral s generalizing body rest with
  | case1 => simp at h
  | case2 r ih =>
    obtain ⟨p, hp, heq⟩ := Option.map_eq_some_iff.1 h
    cases heq
    have := ih hp
    simp only [List.length_cons]; omega
  | case3 r =>
    cases h; simp
  | case4 c r _ hc ih =>
    obtain ⟨p, hp, heq⟩ := Option.map_eq_some_iff.1 h
    cases heq
    have := ih hp
    simp only [List.length_cons]; omega

/-- The decoded string literals of a text, in order. A literal without an end is none. -/
def literals (s : List Char) : List (List Char) :=
  match _h : s.dropWhile (· ≠ '\'') with
  | [] => []
  | _ :: r =>
    match _hr : splitLiteral r with
    | none => []
    | some (body, rest) => decode body :: literals rest
termination_by s.length
decreasing_by
  have h₁ := length_splitLiteral_lt _hr
  have h₂ := (List.dropWhile_suffix (l := s) (· ≠ '\'')).length_le
  rw [_h] at h₂
  simp only [List.length_cons] at h₂; omega

/-- The ids referred to outside of literals, in order; the flag says that a literal is open. A
number sign without digits, or with too large a number, refers to nothing. -/
def references (quoted : Bool) : List Char → List Nat
  | [] => []
  | c :: r =>
    if c = '\'' then references (!quoted) r
    else if c = '#' ∧ quoted = false then
      (Text.wordDigits? (r.takeWhile Text.isDigit)).toList ++ references quoted r
    else references quoted r

/-- The ids that a parameter text refers to. -/
def referencesIn (s : List Char) : List Nat := references false s

example : splitParameters "'a,b',(#1,#2),IFCLABEL('c,d'),$".toList
    = ["'a,b'".toList, "(#1,#2)".toList, "IFCLABEL('c,d')".toList, "$".toList] := by decide
example : referencesIn "'#9',(#1,#22),#3".toList = [1, 22, 3] := by decide

end BimAudit.Step
