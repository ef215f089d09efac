import BimAudit.Files.Path
import BimAudit.Text.Ascii
import BimAudit.Unicode.Case

/-!
# Names of sheets

The results of a model against a document fill a sheet that is named after both. Spreadsheets allow
names of up to 31 characters without brackets, colons, asterisks, question marks, slashes and
quotes, and do not tell names apart by case. A name that is taken is numbered: `name~2`, `name~3`
and so on, with as much cut off in front of the number as is needed. The numbers are signed words of
32 bits.

* `sheetName`: the name of a sheet when some names are taken, unless there is a `Shortage`.
* `sheetNames`: the names of several sheets.
-/

namespace BimAudit.Export

/-- The largest number of characters of a name. -/
def maxNameLength : Nat := 31

/-- The name of the sheet with the totals, which no other sheet may have. -/
def summaryName : String := "Summary"

/-- The characters that no name holds. -/
def forbidden : List Char := ['[', ']', ':', '*', '?', '/', '\\', '\'']

/-- The part of a file's name that goes into the name of a sheet. -/
def baseName (file : String) : String := (Files.stem? file).getD file

/-- A forbidden character is replaced. -/
def allowed (c : Char) : Char := if forbidden.contains c then '_' else c

/-- The name of a model and of a document in one, at full length. -/
def fullName (model document : String) : List Char :=
  ((baseName model).toList ++ '_' :: (baseName document).toList).map allowed

/-- Why a sheet gets no name. -/
inductive Shortage where
  /-- A number takes more room than there is in a name. -/
  | room
  /-- The next number does not fit its word. -/
  | numbers
deriving DecidableEq, Repr

/-- One more than the largest number, `2 ^ 31`. -/
def numberLimit : Nat := 2147483648

/-- What a name ends with that has a number. -/
def numberText (n : Nat) : List Char := '~' :: (toString n).toList

/-- The name with a number at its end. -/
def numbered (name : List Char) (n : Nat) : Except Shortage String :=
  let number := numberText n
  if number.length ≤ maxNameLength then
    .ok (String.ofList (name.take (maxNameLength - number.length) ++ number))
  else .error .room

/-- The form in which names are compared. -/
def folded (name : String) : String := Unicode.lower name

/-- The name is neither taken nor reserved. -/
def isFree (taken : List String) (name : String) : Bool :=
  !taken.contains (folded name) && !Text.equalIgnoringCase name summaryName

/-- Tries a name, and then the numbers from `n` on until a name is free. After each number the next
one is computed, whether it is needed or not. -/
def firstFree (taken : List String) (name : List Char) (tried : String) (n : Nat) :
    Except Shortage String :=
  if isFree taken tried then .ok tried
  else
    match numbered name n with
    | .error e => .error e
    | .ok next =>
      if n + 1 < numberLimit then firstFree taken name next (n + 1) else .error .numbers
termination_by numberLimit - n

/-- The name of a sheet, when the names with the given folded forms are taken. -/
def sheetName (taken : List String) (model document : String) : Except Shortage String :=
  let name := fullName model document
  firstFree taken name (String.ofList (name.take maxNameLength)) 2

/-- The names of sheets, given one after the other. -/
def sheetNames (taken : List String) : List (String × String) → List (Except Shortage String)
  | [] => []
  | (model, document) :: pairs =>
    let name := sheetName taken model document
    name :: sheetNames (name.toOption.toList.map folded ++ taken) pairs

end BimAudit.Export
