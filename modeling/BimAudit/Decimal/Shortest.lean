/-!
# Shortest decimals

`shortest` selects the fewest digits that read back to a binary64 value, and of those the closest
to it. It compares whole numbers only: the reals that read back to `m · 2 ^ q` lie between the
halfway points to its neighbours, ends included exactly if `m` is even. `roundDiv` rounds a quotient
to a whole number.
-/

namespace BimAudit.Decimal

/-- A finite binary64 value without its sign, `m · 2 ^ q`. -/
structure Binary where
  m : Nat
  q : Int
  /-- The value below is half as far away as the value above. -/
  narrowBelow : Bool
deriving Repr, DecidableEq

/-- The finite value with these bits, up to its sign. -/
def Binary.ofBits (b : UInt64) : Binary :=
  let e := ((b >>> 52) &&& 0x7FF).toNat
  let f := (b &&& 0xFFFFFFFFFFFFF).toNat
  if e = 0 then ⟨f, -1074, false⟩ else ⟨Nat.pow 2 52 + f, (e : Int) - 1075, f = 0 && e > 1⟩

/-- The decimal number `digits · 10 ^ exponent`. -/
structure Scaled where
  digits : Nat
  exponent : Int
deriving Repr, DecidableEq

/-- Which way an exact tie goes. -/
inductive Tie where
  | toEven
  | up
deriving Repr, DecidableEq

/-- Compares `a · 10 ^ i` with `n · 2 ^ j`. -/
def compareScaled (a : Nat) (i : Int) (n : Nat) (j : Int) : Ordering :=
  compare (a * Nat.pow 10 i.toNat * Nat.pow 2 (-j).toNat)
    (n * Nat.pow 2 j.toNat * Nat.pow 10 (-i).toNat)

/-- The decimal reads back to the value. -/
def Binary.readsBack (x : Binary) (d : Scaled) : Bool :=
  let low := compareScaled d.digits d.exponent
    (if x.narrowBelow then 4 * x.m - 1 else 4 * x.m - 2) (x.q - 2)
  let high := compareScaled d.digits d.exponent (4 * x.m + 2) (x.q - 2)
  let even := x.m % 2 = 0
  (low = .gt || (even && low = .eq)) && (high = .lt || (even && high = .eq))

/-- The whole part of `m · 2 ^ q / 10 ^ i`. -/
def Binary.units (x : Binary) (i : Int) : Nat :=
  (x.m * Nat.pow 2 x.q.toNat * Nat.pow 10 (-i).toNat)
    / (Nat.pow 2 (-x.q).toNat * Nat.pow 10 i.toNat)

/-- Twice the value against the sum of two neighbours on the grid `10 ^ i`. -/
def Binary.nearness (x : Binary) (a : Nat) (i : Int) : Ordering :=
  compareScaled (2 * a + 1) i (2 * x.m) x.q

/-- The neighbour on the grid `10 ^ i` that reads back, the closer one if both do. -/
def Binary.onGrid? (tie : Tie) (x : Binary) (i : Int) : Option Scaled :=
  let a := x.units i
  match x.readsBack ⟨a, i⟩ && a ≠ 0, x.readsBack ⟨a + 1, i⟩ with
  | true, false => some ⟨a, i⟩
  | false, true => some ⟨a + 1, i⟩
  | false, false => none
  | true, true =>
    match x.nearness a i, tie with
    | .gt, _ => some ⟨a, i⟩
    | .lt, _ => some ⟨a + 1, i⟩
    | .eq, .up => some ⟨a + 1, i⟩
    | .eq, .toEven => if a % 2 = 0 then some ⟨a, i⟩ else some ⟨a + 1, i⟩

/-- The least power of ten above the value, from an estimate that is at most two too small. -/
def Binary.scale (x : Binary) : Int :=
  let guess := ((x.m.log2 : Int) + x.q) * 30103 / 100000
  ([guess, guess + 1, guess + 2].find? fun k => compareScaled 1 k x.m x.q = .gt).getD (guess + 3)

/-- The decimal without trailing zeros among its digits, given that it has at most so many. -/
def Scaled.normalize : Nat → Scaled → Scaled
  | 0, d => d
  | n + 1, d =>
    if d.digits ≠ 0 ∧ d.digits % 10 = 0 then normalize n ⟨d.digits / 10, d.exponent + 1⟩ else d

/-- The exact decimal expansion of the value. -/
def Binary.exact (x : Binary) : Scaled :=
  ⟨x.m * Nat.pow 2 x.q.toNat * Nat.pow 5 (-x.q).toNat, if x.q < 0 then x.q else 0⟩

/-- The shortest decimal that reads back to a value other than zero. -/
def Binary.shortest (tie : Tie) (x : Binary) : Scaled :=
  let scale := x.scale
  let d := ((List.range 17).findSome? fun n => x.onGrid? tie (scale - (n + 1 : Nat))).getD x.exact
  d.normalize (Nat.toDigits 10 d.digits).length

/-- The quotient as a whole number, rounded to the nearest one. -/
def roundDiv (tie : Tie) (num den : Nat) : Nat :=
  let a := num / den
  match compare (2 * (num % den)) den, tie with
  | .lt, _ => a
  | .gt, _ => a + 1
  | .eq, .up => a + 1
  | .eq, .toEven => if a % 2 = 0 then a else a + 1

end BimAudit.Decimal
