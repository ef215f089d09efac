import BimAudit.Audit.Json
import BimAudit.Csv.Writer
import BimAudit.Export.Table
import BimAudit.Files.Access
import BimAudit.Files.Path
import BimAudit.Json.Printer

/-!
# Saving reports

A report is saved as a folder of comma-separated texts, as a spreadsheet with the same tables, or as
one JSON text.
-/

namespace BimAudit.Export

open Audit Files

/-- Why a report could not be saved. -/
inductive Fault where
  /-- A file or a folder cannot be made. -/
  | file
  /-- The spreadsheet cannot be made. -/
  | spreadsheet
  /-- A table gets no name. -/
  | unnamed (s : Shortage)
deriving DecidableEq, Repr

/-- The comma-separated texts of a report: one for every table, and the totals at the end. -/
def csvFiles (r : Report) : Except Shortage (List (String × String)) := do
  let tables := resultTables r
  let files ← tables.mapM fun t => do
    return ((← t.name) ++ ".csv", Csv.write (resultColumns :: resultRows t.file))
  return files ++ [(summaryName ++ ".csv", Csv.write (summaryColumns :: tables.map summaryRow))]

/-- The report as one JSON text. -/
def jsonText (r : Report) : String := r.toJson.pretty

/-- A row of texts in cells. -/
def textCells (row : List String) : List (Option Spreadsheet.Cell) :=
  row.map Spreadsheet.Cell.ofText

/-- A count in a cell. -/
def countCell (n : Nat) : Option Spreadsheet.Cell := some (.number n.toFloat)

/-- The totals of a table in cells: the counts are numbers, and so is the share that passes. -/
def summaryCells (t : ResultTable) : List (Option Spreadsheet.Cell) :=
  let s := t.file.summary
  textCells [t.file.fileName, t.document] ++ [s.total, s.passed, s.failed].map countCell
    ++ [some (.number (s.passRate / 100))]

/-- The sheets of a report. -/
def sheets (r : Report) : Except Shortage (List Spreadsheet.Sheet) := do
  let tables := resultTables r
  let sheets ← tables.mapM fun t => do
    return ⟨← t.name, (resultColumns :: resultRows t.file).map textCells⟩
  return sheets ++ [⟨summaryName, textCells summaryColumns :: tables.map summaryCells⟩]

variable {m : Type → Type} [Monad m] [FileSystem m]

/-- Writes files one after the other, up to the first that cannot be written. -/
def writeAll : List (String × String) → m Bool
  | [] => pure true
  | (path, text) :: files => do
    if ← FileSystem.write path (.ofText text) then writeAll files else return false

/-- Saves a report as comma-separated texts in a folder. Gives the names of the files. -/
def saveCsv (r : Report) (folder : String) : m (Except Fault (List String)) := do
  unless ← FileSystem.createFolder folder do return .error .file
  match csvFiles r with
  | .error e => return .error (.unnamed e)
  | .ok files =>
    if ← writeAll (files.map fun f => (inFolder folder f.1, f.2)) then return .ok (files.map (·.1))
    else return .error .file

/-- Saves a report as one JSON text, in a folder that is made if need be. -/
def saveJson (r : Report) (path : String) : m (Except Fault Unit) := do
  unless ← createFolderOf path do return .error .file
  if ← FileSystem.write path (.ofText (jsonText r)) then return .ok () else return .error .file

/-- Saves a report as a spreadsheet. -/
def saveSpreadsheet (r : Report) (path : String) : m (Except Fault Unit) := do
  match sheets r with
  | .error e => return .error (.unnamed e)
  | .ok sheets =>
    unless sheets.all Spreadsheet.Sheet.fits do return .error .spreadsheet
    if ← FileSystem.write path (.spreadsheet sheets) then return .ok ()
    else return .error .spreadsheet

end BimAudit.Export
