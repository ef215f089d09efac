import BimAudit.Decimal.Shortest

/-!
# Notations of numbers

How a selected decimal is laid out: positionally, with a fixed number of places, or with an exponent
outside of a range of sizes.
-/

namespace BimAudit.Decimal

/-- The digits of a natural number. -/
def digitsOf (n : Nat) : List Char := Nat.toDigits 10 n

/-- The digits with the point set `places` from the right; zeros fill up to one whole digit. -/
def withPlaces (n places : Nat) : List Char :=
  let ds := digitsOf n
  let ds := List.replicate (places + 1 - ds.length) '0' ++ ds
  let whole := ds.take (ds.length - places)
  if places = 0 then whole else whole ++ '.' :: ds.drop (ds.length - places)

/-- The decimal written out in full, without a point if it is whole. -/
def Scaled.positional (d : Scaled) : List Char :=
  if 0 ≤ d.exponent then digitsOf (d.digits * Nat.pow 10 d.exponent.toNat)
  else withPlaces d.digits d.exponent.natAbs

/-- The sign in front of a text. -/
def signed (x : Float) (s : List Char) : List Char :=
  if x.toBits >>> 63 = 1 then '-' :: s else s

/-- The text of a value: the special ones by name, the others by their shortest decimal. -/
def layout (tie : Tie) (zero : String) (write : Scaled → List Char) (x : Float) : String :=
  if x.isNaN then "NaN"
  else if x.isInf then String.ofList (signed x "inf".toList)
  else
    let b := Binary.ofBits x.toBits
    String.ofList (signed x (if b.m = 0 then zero.toList else write (b.shortest tie)))

/-- The shortest decimal, always written out in full. -/
def plain : Float → String := layout .up "0" Scaled.positional

/-- The shortest decimal, with a point or an exponent: written out from `10 ^ -5` up to below
`10 ^ 16`, and with a signed exponent outside. -/
def Scaled.scientific (d : Scaled) : List Char :=
  let ds := digitsOf d.digits
  let point : Int := d.exponent + ds.length
  if 0 ≤ d.exponent ∧ point ≤ 16 then
    digitsOf (d.digits * Nat.pow 10 d.exponent.toNat) ++ ['.', '0']
  else if -5 < point ∧ point ≤ 16 then withPlaces d.digits d.exponent.natAbs
  else
    let exponent := 'e' :: (if 0 < point then ['+'] else []) ++ (toString (point - 1)).toList
    match ds with
    | [c] => c :: exponent
    | c :: r => c :: '.' :: r ++ exponent
    | [] => exponent

/-- The shortest decimal, told apart from a whole number by its point or exponent. -/
def scientific : Float → String := layout .toEven "0.0" Scaled.scientific

/-- The value rounded to a fixed number of places; an exact tie goes to the even neighbour. -/
def fixed (places : Nat) (x : Float) : String :=
  if x.isNaN then "NaN"
  else if x.isInf then String.ofList (signed x "inf".toList)
  else
    let b := Binary.ofBits x.toBits
    let units := b.m * Nat.pow 2 b.q.toNat * Nat.pow 10 places
    let n := roundDiv .toEven units (Nat.pow 2 (-b.q).toNat)
    String.ofList (signed x (withPlaces n places))

end BimAudit.Decimal
