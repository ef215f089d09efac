/-!
# Pieces

The pieces of a text are what stands between the places where a mark occurs. There is always one
more piece than there are marks, and a piece may be empty.
-/

namespace BimAudit.Text

/-- The pieces of a text between the marks. -/
def pieces (mark : Char) : List Char → List (List Char)
  | [] => [[]]
  | c :: r =>
    if c = mark then [] :: pieces mark r
    else match pieces mark r with
      | p :: ps => (c :: p) :: ps
      | [] => [[c]]

/-- What stands in front of and behind the last mark, if there is one. -/
def splitLast? (mark : Char) : List Char → Option (List Char × List Char)
  | [] => none
  | c :: r =>
    match splitLast? mark r with
    | some (before, behind) => some (c :: before, behind)
    | none => if c = mark then some ([], r) else none

example : pieces '|' "a||b|".toList = ["a".toList, [], "b".toList, []] := by decide
example : splitLast? '.' "a.b.c".toList = some ("a.b".toList, "c".toList) := by decide

end BimAudit.Text
