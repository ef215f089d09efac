/-!
# Lines

A text is cut at its line feeds; a carriage return right before a line feed belongs to the line
end. What follows the last line feed is a line of its own unless it is empty.
-/

namespace BimAudit.Text

/-- The lines of the text behind a character, with that character in view: the flag says that a
line feed stands right behind it. -/
def lineStep (c : Char) : Bool × List (List Char) → Bool × List (List Char)
  | (beforeFeed, ls) =>
    if c = '\n' then (true, [] :: ls)
    else if c = '\r' ∧ beforeFeed = true then (false, ls)
    else match ls with
      | [] => (false, [[c]])
      | l :: rest => (false, (c :: l) :: rest)

/-- The lines of a text, without their ends. -/
def lines (s : List Char) : List (List Char) := (s.foldr lineStep (false, [])).2

example : lines "a\r\n\nb\rc\r".toList = ["a".toList, [], "b\rc\r".toList] := by decide

end BimAudit.Text
