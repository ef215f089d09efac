import BimAudit.Total

/-!
# Layouts

A row is divided into parts with gaps between them. A part asks for a number of columns or for a
share of the row. If there is not enough room for all of them, the largest shares are cut down to a
common size. The parts begin and end at fractions of columns, which are then rounded.
-/

namespace BimAudit.Screen

/-- What a part of a row asks for. -/
inductive Extent where
  | columns (n : Nat)
  | percent (n : Nat)
deriving DecidableEq, Repr

namespace Extent

/-- The size that a part asks for in a row of the given width. -/
def size (width : Nat) : Extent → Rat
  | columns n => n
  | percent n => n * width / 100

/-- The columns that a part asks for in any row. -/
def fixed : Extent → Nat
  | columns n => n
  | percent _ => 0

/-- The size of a part when shares are cut down to a common size. -/
def cut (limit : Option Rat) (size : Rat) : Extent → Rat
  | columns _ => size
  | percent _ => match limit with
    | some l => if l ≤ size then l else size
    | none => size

end Extent

/-- The common size to which the largest of some sizes, given from the smallest on, have to be cut
down to find room, if they have to. -/
def limit? (room : Rat) : List Rat → Option Rat
  | [] => none
  | s :: r =>
    -- the smallest fits if all the others were of its size
    if s * (r.length + 1) ≤ room then limit? (room - s) r else some (room / (r.length + 1))

/-- The sizes of the parts of a row. -/
def sizes (width gap : Nat) (parts : List Extent) : List Rat :=
  let shares := (parts.filterMap fun p => match p with
    | .percent _ => some (p.size width)
    | .columns _ => none).mergeSort fun s t => s ≤ t
  let room := width - gap * (parts.length - 1) - total Extent.fixed parts
  parts.map fun p => p.cut (limit? room shares) (p.size width)

/-- The nearest whole number. A half goes up. -/
def nearest (x : Rat) : Nat := (x + 1 / 2).floor.toNat

/-- The first columns and the widths of parts of the given sizes, from a fraction of a column on. -/
def place (gap : Nat) (start : Rat) : List Rat → List (Nat × Nat)
  | [] => []
  | s :: r => (nearest start, nearest (start + s) - nearest start) :: place gap (start + s + gap) r

/-- The first column and the width of every part of a row. -/
def divide (width gap : Nat) (parts : List Extent) : List (Nat × Nat) :=
  place gap 0 (sizes width gap parts)

end BimAudit.Screen
