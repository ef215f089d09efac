import BimAudit.Dictionary
import BimAudit.Text.Ascii
import BimAudit.Text.Blank

/-!
# Workbooks

A workbook describes requirements in tables: it is a collection of named sheets, each a list of rows
that give cells to named columns. The names of sheets and columns do not regard the case of ASCII
letters or blanks around them.

* `Row.ofCells`: a row from its cells. Of two columns with the same name the later one counts.
* `Workbook.insert`: adds a sheet, in place of one with the same name.
-/

namespace BimAudit

/-- A row: its cells by the names of their columns. -/
abbrev Workbook.Row := Dictionary String

/-- Sheets by their names. -/
structure Workbook where
  sheets : Dictionary (List Workbook.Row) := ∅

namespace Workbook

/-- The form of a name under which it is looked up. -/
def canonicalName (s : String) : String := Text.lower (Text.strip s)

namespace Row

/-- The row with the given cells. -/
def ofCells (cells : List (String × String)) : Row :=
  .ofList (cells.map fun c => (canonicalName c.1, c.2))

/-- The cell of a column without the blanks around it. A missing cell is empty. -/
def cell (r : Row) (column : String) : String := Text.strip ((r.find? column).getD "")

/-- The cell of a column, if there is anything in it. -/
def cell? (r : Row) (column : String) : Option String :=
  if (r.cell column).isEmpty then none else some (r.cell column)

end Row

/-- Adds a sheet with the given rows, each a list of cells by column. -/
def insert (w : Workbook) (name : String) (rows : List (List (String × String))) : Workbook :=
  ⟨w.sheets.insert (canonicalName name) (rows.map Row.ofCells)⟩

/-- The rows of a sheet. -/
def sheet? (w : Workbook) (name : String) : Option (List Row) := w.sheets.find? name

/-- The rows of a sheet, none if there is no such sheet. -/
def rows (w : Workbook) (name : String) : List Row := (w.sheet? name).getD []

end Workbook

end BimAudit
