import BimAudit.Text.Blank

/-!
# Words

The words of a text are its pieces between blanks.
-/

namespace BimAudit.Text

/-- One more character in front of some words; the flag says that the first word goes on. -/
def wordStep (c : Char) : Bool × List (List Char) → Bool × List (List Char)
  | (goesOn, ws) =>
    if isBlank c then (false, ws)
    else match goesOn, ws with
      | true, w :: ws => (true, (c :: w) :: ws)
      | _, ws => (true, [c] :: ws)

/-- The words of a text. -/
def words (s : List Char) : List (List Char) := (s.foldr wordStep (false, [])).2

/-- The words of a string with one space between them. -/
def joinWords (s : String) : String := " ".intercalate ((words s.toList).map String.ofList)

example : joinWords "  a\tb  c " = "a b c" := by decide

end BimAudit.Text
