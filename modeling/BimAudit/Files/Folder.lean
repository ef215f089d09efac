import BimAudit.Files.Access
import BimAudit.Files.Path

/-!
# Folders in memory

A folder in memory holds files by the names on the way to them. It is a file system of its own:
paths that lead out of it lead nowhere.
-/

namespace BimAudit.Files

/-- A place in a folder: the names on the way to it. -/
abbrev Place := List String

/-- Files by their places, with the folders that were made. -/
structure Folder where
  files : List (Place × Content) := []
  folders : List Place := []

namespace Folder

/-- There is a folder at the place: it was made, or there is a file below it. -/
def hasFolder (f : Folder) (p : Place) : Bool :=
  p.isEmpty || f.folders.contains p ||
    f.files.any fun e => p.isPrefixOf e.1 && decide (p.length < e.1.length)

/-- The content of the file at a place. -/
def file? (f : Folder) (p : Place) : Option Content := (f.files.find? (·.1 = p)).map (·.2)

/-- The name can be given to a file. -/
def allows (name : String) : Bool := !name.toList.contains '\x00' && name.utf8ByteSize ≤ 255

/-- The place one name further, if there is a folder. -/
def enter? (f : Folder) (p : Place) (name : String) : Option Place :=
  if name = ".." then (if p.isEmpty then none else some p.dropLast)
  else if f.hasFolder (p ++ [name]) then some (p ++ [name])
  else none

/-- The folder with the folder one name further made if need be, and the place of that one. -/
def make? (state : Folder × Place) (name : String) : Option (Folder × Place) :=
  let (f, p) := state
  match f.enter? p name with
  | some p => some (f, p)
  | none =>
    if name = ".." || (f.file? (p ++ [name])).isSome || !allows name then none
    else some ({ f with folders := f.folders ++ [p ++ [name]] }, p ++ [name])

/-- The place of the folder at a path. -/
def locate? (f : Folder) (path : String) : Option Place :=
  if isAbsolute path then none else (names path).foldlM f.enter? []

/-- The place of a file at a path, in a folder that is there. -/
def placeOf? (f : Folder) (path : String) : Option Place :=
  match (names path).getLast? with
  | some name =>
    if isAbsolute path || namesFolder path || !allows name then none
    else ((names path).dropLast.foldlM f.enter? []).map (· ++ [name])
  | none => none

/-- Gives the file at a place its content. -/
def put (f : Folder) (p : Place) (c : Content) : Folder :=
  { f with files := (f.files.filter (·.1 ≠ p)) ++ [(p, c)] }

/-- Makes the folder at a path. -/
def createFolder? (f : Folder) (path : String) : Option Folder :=
  if isAbsolute path then none else ((names path).foldlM make? (f, [])).map (·.1)

/-- Writes the file at a path. -/
def write? (f : Folder) (path : String) (c : Content) : Option Folder :=
  match f.placeOf? path with
  | some p => if f.hasFolder p then none else some (f.put p c)
  | none => none

/-- Takes over a changed folder, or leaves things as they are if the change failed. -/
def attempt (change : Folder → Option Folder) : StateM Folder Bool := fun f =>
  match change f with
  | some f => (true, f)
  | none => (false, f)

instance : FileSystem (StateM Folder) where
  isFolder path := do return ((← get).locate? path).isSome
  read? path := do
    let f ← get
    return (f.placeOf? path).bind f.file?
  createFolder path := attempt (·.createFolder? path)
  write path c := attempt (·.write? path c)

end Folder

end BimAudit.Files
