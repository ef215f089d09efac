import BimAudit.Decimal.Notation

/-!
# Spreadsheets

A spreadsheet is a list of named sheets, and a sheet is a grid of cells, some of which are missing.
-/

namespace BimAudit.Spreadsheet

/-- What a cell holds. -/
inductive Cell where
  | text (s : String)
  | number (x : Float)
  | truth (b : Bool)

/-- The text that stands for a cell. Whole numbers of up to fifteen digits have no point. -/
def Cell.written : Cell → String
  | text s => s
  | number x => if x.floor == x && x.abs < 1e15 then Decimal.fixed 0 x else Decimal.plain x
  | truth b => if b then "true" else "false"

/-- A named grid of cells, by rows. Cells behind the end of a row are missing. -/
structure Sheet where
  name : String
  rows : List (List (Option Cell))

/-- A text as a cell. An empty text is no cell. -/
def Cell.ofText (s : String) : Option Cell := if s.isEmpty then none else some (text s)

/-- The row holds no cell. -/
def isVacant (row : List (Option Cell)) : Bool := row.all (·.isNone)

/-- The number of missing cells in front of the first cell. -/
def margin (row : List (Option Cell)) : Nat := (row.takeWhile (·.isNone)).length

/-- The number of places up to the last cell. -/
def extent (row : List (Option Cell)) : Nat := (row.reverse.dropWhile (·.isNone)).length

/-- The smallest rectangle that holds all cells of the sheet. Its rows all have the same length. -/
def Sheet.bounded (s : Sheet) : List (List (Option Cell)) :=
  let rows := (s.rows.dropWhile isVacant).reverse.dropWhile isVacant |>.reverse
  let used := rows.filter (!isVacant ·)
  match (used.map margin).min? with
  | none => []
  | some left =>
    let right := (used.map extent).max?.getD 0
    rows.map fun row => (List.range (right - left)).map fun i => row[left + i]?.join

/-- The largest number of characters in a cell. -/
def maxTextLength : Nat := 32767

/-- The largest number of rows of a sheet. -/
def maxRows : Nat := 1048576

/-- The cell can be stored. -/
def Cell.fits : Cell → Bool
  | text s => s.length ≤ maxTextLength
  | _ => true

/-- The sheet can be stored. -/
def Sheet.fits (s : Sheet) : Bool :=
  s.rows.length ≤ maxRows && s.rows.all (·.all (·.all Cell.fits))

end BimAudit.Spreadsheet
