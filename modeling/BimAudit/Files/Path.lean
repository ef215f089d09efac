import BimAudit.Text.Pieces

/-!
# Paths

A path is a text of names between slashes. Empty names and single points count for nothing, two
points lead back to the folder before, and the last name is the name of the file. It ends in an
extension if there is a point behind its first character.
-/

namespace BimAudit.Files

/-- The names along a path. -/
def names (path : String) : List String :=
  ((Text.pieces '/' path.toList).filter fun p => p ≠ [] ∧ p ≠ ['.']).map String.ofList

/-- The path begins at the root of all files. -/
def isAbsolute (path : String) : Bool := path.toList.head? = some '/'

/-- The way in which the path is written allows only for a folder at its end. -/
def namesFolder (path : String) : Bool :=
  match (Text.pieces '/' path.toList).getLast? with
  | some p => p = [] ∨ p = ['.'] ∨ p = ['.', '.']
  | none => true

/-- The name of the file that a path leads to. -/
def fileName? (path : String) : Option String := (names path).getLast?.filter (· ≠ "..")

/-- The name of the file that a path leads to, or the path itself if there is none. -/
def displayName (path : String) : String := (fileName? path).getD path

/-- Splits the extension off a file name. -/
def splitExtension (name : String) : String × Option String :=
  match Text.splitLast? '.' name.toList with
  | some (c :: r, extension) => (String.ofList (c :: r), some (String.ofList extension))
  | _ => (name, none)

/-- The extension of the file that a path leads to. -/
def extension? (path : String) : Option String :=
  (fileName? path).bind fun n => (splitExtension n).2

/-- The name of the file that a path leads to, without its extension. -/
def stem? (path : String) : Option String := (fileName? path).map fun n => (splitExtension n).1

/-- The path of a file in a folder. -/
def inFolder (folder file : String) : String := folder ++ "/" ++ file

end BimAudit.Files
