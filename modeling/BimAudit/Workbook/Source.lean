import BimAudit.Csv.Reader
import BimAudit.Json.Canonical
import BimAudit.Json.Printer
import BimAudit.Json.Reader
import BimAudit.Spreadsheet.Basic
import BimAudit.Workbook.Document

/-!
# Sources of workbooks

A workbook is given as one comma-separated text for each sheet, as a JSON object, or as a
spreadsheet. In the first and the last of them the first row holds the names of the columns.
-/

namespace BimAudit.Workbook

/-- Why a source gives no workbook or a workbook no document. -/
inductive Fault where
  /-- A sheet that has to be there is missing. -/
  | missingSheet (name : String)
  /-- A JSON text is no object. -/
  | noSheets
  /-- A member of a JSON object is no array. -/
  | noRows (sheet : String)
  /-- An item of a JSON array is no object. -/
  | noCells (sheet : String)
  /-- A text is no JSON text. -/
  | json
  /-- A comma-separated text holds bytes that are no text. -/
  | csv
  /-- A file is no spreadsheet. -/
  | spreadsheet
  /-- There is no such file, or it is no text. -/
  | unreadable
deriving DecidableEq, Repr

/-- The fault in words, if it can be told. -/
def Fault.message? : Fault → Option String
  | missingSheet name => some ("workbook is missing required sheet '" ++ name ++ "'")
  | noSheets => some "invalid workbook: expected a JSON object of sheets"
  | noRows sheet => some ("invalid workbook: sheet '" ++ sheet ++ "' is not an array of rows")
  | noCells sheet =>
    some ("invalid workbook: sheet '" ++ sheet ++ "' has a row that is not an object")
  | _ => none

/-- The document in a workbook with the warnings. -/
def document (w : Workbook) : Except Fault (Ids.Document × List Warning) :=
  w.document?.mapError .missingSheet

/-! ### Comma-separated texts -/

/-- A record as texts without blanks around them. -/
def fields? (record : List Csv.Field) : Option (List String) :=
  record.mapM fun f => (Csv.text? f).map Text.strip

/-- The rows of a comma-separated text: each record behind the first one gives a field to each of
the columns that the first one names. -/
def csvRows? (bytes : List UInt8) : Option (List (List (String × String))) :=
  ((Csv.records bytes).mapM fields?).map fun records =>
    match records with
    | [] => []
    | columns :: records => records.map columns.zip

/-- The workbook with the given comma-separated texts as sheets. -/
def ofCsv (sheets : List (String × List UInt8)) : Except Fault Workbook :=
  sheets.foldlM (fun w s => match csvRows? s.2 with
    | some rows => .ok (w.insert s.1 rows)
    | none => .error .csv) {}

/-! ### JSON -/

/-- The text of a cell: a string itself, nothing for null, and the JSON text of anything else. -/
def jsonCell : Json → String
  | .null => ""
  | .string s => s
  | j => j.canonical.compact

/-- The cells of a row. -/
def jsonCells (sheet : String) (j : Json) : Except Fault (List (String × String)) :=
  match j with
  | .object cells => .ok ((Json.sorted cells).map fun c => (c.1, jsonCell c.2))
  | _ => .error (.noCells sheet)

/-- The workbook in a JSON value, an object with an array of objects for each sheet. -/
def ofJsonValue : Json → Except Fault Workbook
  | .object sheets =>
    (Json.sorted sheets).foldlM (fun w s => match s.2 with
      | .array rows => do return w.insert s.1 (← rows.mapM (jsonCells s.1))
      | _ => .error (.noRows s.1)) {}
  | _ => .error .noSheets

/-- The workbook in a JSON text. -/
def ofJson (s : String) : Except Fault Workbook :=
  match Json.parse? s with
  | some j => ofJsonValue j
  | none => .error .json

/-! ### Spreadsheets -/

/-- The text of a cell, empty if the cell is missing. -/
def cellText (c : Option Spreadsheet.Cell) : String := (c.map (·.written)).getD ""

/-- The rows of a sheet: the first row of the rectangle that the cells fill names the columns. A row
without a cell and a column without a name are left out. -/
def sheetRows (s : Spreadsheet.Sheet) : List (List (String × String)) :=
  match s.bounded with
  | [] => []
  | columns :: rows =>
    (rows.filter (!Spreadsheet.isVacant ·)).map fun cells =>
      (((columns.map cellText).zip (cells.map cellText)).filter (!Text.isBlankString ·.1))

/-- The workbook in a spreadsheet. -/
def ofSpreadsheet (sheets : List Spreadsheet.Sheet) : Workbook :=
  sheets.foldl (fun w s => w.insert s.name (sheetRows s)) {}

end BimAudit.Workbook
