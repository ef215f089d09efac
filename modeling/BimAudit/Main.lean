import BimAudit.Browser.Key
import BimAudit.Browser.Picture
import BimAudit.CommandLine.Run

/-!
# The program

Files are those of the computer. A report that is not saved is browsed: the picture is printed, and
each line of input is read as keys, arrow keys and the like by their names and other keys by their
characters.
-/

open BimAudit

/-- Runs an action that may fail for reasons outside of the program. -/
def attempt {α : Type} (action : IO α) : IO (Option α) := do
  try return some (← action)
  catch _ => return none

instance : Files.FileSystem IO where
  isFolder path := (IO.FS.DirEntry.mk path "").root.isDir
  read? path := do return (← attempt (IO.FS.readBinFile path)).map .bytes
  createFolder path := do return (← attempt (IO.FS.createDirAll path)).isSome
  write path content := do
    match content with
    | .bytes b => return (← attempt (IO.FS.writeBinFile path b)).isSome
    | .spreadsheet _ => return false

/-- The keys that a line of input stands for. -/
def keysOf (line : String) : List Browser.Key :=
  match line with
  | "" | "enter" => [.enter]
  | "up" => [.up]
  | "down" => [.down]
  | "left" => [.left]
  | "right" => [.right]
  | "esc" => [.escape]
  | "back" => [.backspace]
  | s => s.toList.map .character

/-- A picture as text. -/
def pictureText (c : Screen.Canvas) : String :=
  String.join (c.rows.toList.map fun r => String.ofList (r.toList.map (·.symbol)) ++ "\n")

/-- Browses a report until the browser is left or the input ends. -/
partial def browse (b : Browser) : IO Unit := do
  IO.print (pictureText (b.picture 120 40))
  let line ← (← IO.getStdin).getLine
  unless line.isEmpty do
    let b := b.pressAll (keysOf (Text.strip line))
    unless b.closed do browse b

/-- Runs the program and reports how it ended. -/
def main (arguments : List String) : IO UInt32 := do
  let (t, r) ← CommandLine.run (m := IO) arguments
  t.warnings.forM fun w => IO.eprintln ("warning: " ++ w)
  IO.print (CommandLine.printed t r)
  match r with
  | .detour (.misuse m) => IO.eprintln ("error: " ++ m.message)
  | .failed f => IO.eprintln ("Error: " ++ f.message)
  | .ended (.browse report) => browse { report }
  | _ => pure ()
  return r.exitCode.toUInt32
