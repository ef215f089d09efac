/-!
# Ranges of code points in UTF-8

UTF-8 writes a code point as a first byte and up to three more, which hold six bits each. A range of
code points falls into pieces that are products of ranges of bytes.

* `byteSpans`: the pieces of a range, in ascending order.
-/

namespace BimAudit.Text

/-- The numbers from `a` to `b` in digits to the base 64, the first digit of any size and `k` more
behind it, as products of ranges of digits. -/
def digitSpans : Nat → Nat → Nat → List (List (Nat × Nat))
  | 0, a, b => [[(a, b)]]
  | k + 1, a, b =>
    let unit := Nat.pow 64 (k + 1)
    let first := a / unit
    let last := b / unit
    if first = last then (digitSpans k (a % unit) (b % unit)).map ((first, first) :: ·)
    else
      -- the first digits at either end may have only some of the digits behind them
      let fromStart := a % unit = 0
      let toEnd := b % unit + 1 = unit
      let below := if fromStart then []
        else (digitSpans k (a % unit) (unit - 1)).map ((first, first) :: ·)
      let above := if toEnd then [] else (digitSpans k 0 (b % unit)).map ((last, last) :: ·)
      let low := if fromStart then first else first + 1
      let high := if toEnd then last else last - 1
      let between := if low ≤ high then [(low, high) :: List.replicate (k + 1) (0, 63)] else []
      below ++ between ++ above

/-- The first and the last code point with each number of bytes, and what the first byte adds. -/
def byteLengths : List (Nat × Nat × Nat) :=
  [(0, 0x7F, 0), (0x80, 0x7FF, 0xC0), (0x800, 0xFFFF, 0xE0), (0x10000, 0x10FFFF, 0xF0)]

/-- Moves a range by a number. -/
def shiftSpan (n : Nat) (r : Nat × Nat) : Nat × Nat := (r.1 + n, r.2 + n)

/-- The range of code points from `a` to `b` as products of ranges of bytes. -/
def byteSpans (a b : Nat) : List (List (Nat × Nat)) :=
  byteLengths.zipIdx.flatMap fun ((first, last, mark), k) =>
    let low := max a first
    let high := min b last
    if low ≤ high then
      (digitSpans k low high).map fun ds => match ds with
        | d :: r => shiftSpan mark d :: r.map (shiftSpan 0x80)
        | [] => []
    else []

example : byteSpans 0x7E 0x81 = [[(0x7E, 0x7F)], [(0xC2, 0xC2), (0x80, 0x81)]] := by decide

end BimAudit.Text
