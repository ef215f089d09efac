import BimAudit.Files.Access
import BimAudit.Files.Path
import BimAudit.Workbook.Source

/-!
# Workbooks in files

A workbook is a folder with comma-separated texts, a spreadsheet, which is known by its extension,
or a file with a JSON text.
-/

namespace BimAudit.Workbook

open Files

/-- The extensions of spreadsheets. -/
def spreadsheetExtensions : List String := ["xlsx", "xlsm", "xlsb", "xls", "ods"]

/-- The file is a spreadsheet by its name. -/
def isSpreadsheet (path : String) : Bool :=
  (extension? path).any fun e => spreadsheetExtensions.any (Text.equalIgnoringCase e)

variable {m : Type → Type} [Monad m] [FileSystem m]

/-- The sheets in a folder: the comma-separated texts that are there. -/
def sheetsIn (folder : String) : m (List (String × List UInt8)) := do
  let mut sheets := []
  for name in requiredSheets ++ optionalSheets do
    if let some (.bytes b) ← FileSystem.read? (inFolder folder (name ++ ".csv")) then
      sheets := sheets ++ [(name, b.toList)]
  return sheets

/-- Reads the workbook at a path. -/
def load (path : String) : m (Except Fault Workbook) := do
  if ← FileSystem.isFolder path then
    return ofCsv (← sheetsIn path)
  let content ← FileSystem.read? path
  if isSpreadsheet path then
    match content with
    | some (.spreadsheet sheets) => return .ok (ofSpreadsheet sheets)
    | _ => return .error .spreadsheet
  else
    match content.bind Content.text? with
    | some s => return ofJson s
    | none => return .error .unreadable

end BimAudit.Workbook
