import BimAudit.Spreadsheet.Basic
import BimAudit.Text.Pieces

/-!
# Access to files

A program gets at files by a few operations, each of which says by its answer whether it succeeded.
Spreadsheets are read and written as such, since how they are stored does not matter to a program.
-/

namespace BimAudit.Files

/-- What a file holds. -/
inductive Content where
  | bytes (b : ByteArray)
  | spreadsheet (sheets : List Spreadsheet.Sheet)

namespace Content

/-- A text as the content of a file. -/
def ofText (s : String) : Content := bytes s.toUTF8

/-- The text that a content is. -/
def text? : Content → Option String
  | bytes b => String.fromUTF8? b
  | spreadsheet _ => none

end Content

/-- The operations on files. -/
class FileSystem (m : Type → Type) where
  /-- There is a folder at the path. -/
  isFolder : String → m Bool
  /-- The content of the file at the path. -/
  read? : String → m (Option Content)
  /-- Makes the folder at the path and all folders on the way to it. -/
  createFolder : String → m Bool
  /-- Writes the file at the path, in a folder that is there. -/
  write : String → Content → m Bool

/-- The text of the file at the path. -/
def readText? {m : Type → Type} [Monad m] [FileSystem m] (path : String) : m (Option String) := do
  return (← FileSystem.read? path).bind Content.text?

/-- Makes the folder of a file and the folders on the way to it. -/
def createFolderOf {m : Type → Type} [Monad m] [FileSystem m] (path : String) : m Bool :=
  match Text.splitLast? '/' path.toList with
  | some (folder, _) =>
    if folder.isEmpty then pure true else FileSystem.createFolder (String.ofList folder)
  | none => pure true

end BimAudit.Files
