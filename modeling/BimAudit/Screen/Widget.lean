import BimAudit.Screen.Canvas
import BimAudit.Screen.Layout

/-!
# Widgets

What a screen is made of: boxes with a title, lines of text, tables, lists and scroll bars.
-/

namespace BimAudit.Screen.Canvas

/-- Draws the border of an area with a title in its upper edge. -/
def box (c : Canvas) (a : Area) (title : String) (style : Style) : Canvas :=
  let right := a.x + a.width - 1
  let bottom := a.y + a.height - 1
  let edges (c : Canvas) : Canvas :=
    (List.range (a.width - 2)).foldl (fun c i =>
      (c.draw (a.x + 1 + i) a.y ⟨'─', style⟩).draw (a.x + 1 + i) bottom ⟨'─', style⟩) c
  let sides (c : Canvas) : Canvas :=
    (List.range (a.height - 2)).foldl (fun c i =>
      (c.draw a.x (a.y + 1 + i) ⟨'│', style⟩).draw right (a.y + 1 + i) ⟨'│', style⟩) c
  let c := sides (edges c)
  let c := (c.draw a.x a.y ⟨'┌', style⟩).draw right a.y ⟨'┐', style⟩
  let c := (c.draw a.x bottom ⟨'└', style⟩).draw right bottom ⟨'┘', style⟩
  c.write (a.x + 1) a.y (a.width - 2) [⟨title, {}⟩]

/-- Draws a line of text in a box without a title. -/
def panel (c : Canvas) (a : Area) (line : List Span) : Canvas :=
  let i := a.inner
  (c.box a "" {}).write i.x i.y i.width line

/-- A row of a table. -/
structure TableRow where
  cells : List String
  style : Style := {}

/-- Draws a row of a table, given the places of its columns. -/
def tableRow (c : Canvas) (a : Area) (y : Nat) (columns : List (Nat × Nat)) (r : TableRow) :
    Canvas :=
  let c := c.paint ⟨a.x, y, a.width, 1⟩ r.style
  (columns.zip r.cells).foldl (fun c cell =>
    c.write (a.x + cell.1.1) y cell.1.2 [⟨cell.2, {}⟩]) c

/-- Draws a table with a row of titles. Rows for which there is no room are left out. -/
def table (c : Canvas) (a : Area) (extents : List Extent) (header : TableRow)
    (rows : List TableRow) : Canvas :=
  ((header :: rows).take a.height).zipIdx.foldl (fun c r =>
    c.tableRow a (a.y + r.2) (divide a.width 1 extents) r.1) c

/-- Draws a list of items of two lines each. Items for which there is no room are left out. -/
def list (c : Canvas) (a : Area) (items : List (List Span × List Span)) : Canvas :=
  (items.take (a.height / 2)).zipIdx.foldl (fun c item =>
    let y := a.y + 2 * item.2
    (c.write a.x y a.width item.1.1).write a.x (y + 1) a.width item.1.2) c

/-- The thumb of a scroll bar: where it begins on the track, and its length. The bar stands for a
list of the given length, of which the item at `position` is selected. -/
def thumb (bar length position : Nat) : Nat × Nat :=
  let track := bar - 2
  let last := length - 1
  let range := last + bar
  let nearest (n : Nat) : Nat := (2 * n * track + range) / (2 * range)
  let start := min (nearest (min position last)) (track - 1)
  let stop := min (nearest (min position last + bar)) track
  (start, max (stop - start) 1)

/-- The symbols of a scroll bar, from top to bottom. -/
def scrollSymbols (bar length position : Nat) : List Char :=
  let (start, size) := thumb bar length position
  '↑' :: List.replicate start '║' ++ List.replicate size '█'
    ++ List.replicate (bar - 2 - (start + size)) '║' ++ ['↓']

/-- Draws a scroll bar on the right edge of a box, below its first line. -/
def scrollBar (c : Canvas) (a : Area) (length position : Nat) : Canvas :=
  let bar := a.height - 3
  if a.height < 6 ∨ length = 0 then c
  else (scrollSymbols bar length position).zipIdx.foldl
    (fun c s => c.put (a.x + a.width - 1) (a.y + 2 + s.2) s.1) c

end BimAudit.Screen.Canvas
