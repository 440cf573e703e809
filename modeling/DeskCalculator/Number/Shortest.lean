import DeskCalculator.Number.Decimal

/-!
# The fewest digits that read back

Every binary64 number is the nearest one to all fractions in some interval around it, whose
ends belong to it exactly when the significand is even.  `Shortest.decimal` is the decimal
number in that interval with the fewest digits; of several it takes the one closest to the
number itself, and of two equally close ones the larger.  `Shortest.text` writes it out in
full.
-/

namespace DeskCalculator

namespace Shortest

open scoped NatPower

/-- The interval of the fractions that round to `m · 2 ^ q`, in units of a quarter of
`2 ^ q`.  Below a power of two the neighbour is only half as far away. -/
def interval (m : Nat) (q : Int) : Nat × Nat :=
  let below := if m = 2 ^ Binary64.fractionBits ∧ Binary64.leastExponent < q then 1 else 2
  (4 * m - below, 4 * m + 2)

/-- Compares `c · 10 ^ k` with `a · 2 ^ p`. -/
def compareScaled (c : Nat) (k : Int) (a : Nat) (p : Int) : Ordering :=
  compare (c * 10 ^ k.toNat * 2 ^ (-p).toNat) (a * 2 ^ p.toNat * 10 ^ (-k).toNat)

/-- Whether `c · 10 ^ k` rounds to `m · 2 ^ q`. -/
def readsBack (m : Nat) (q : Int) (c : Nat) (k : Int) : Bool :=
  let (low, high) := interval m q
  match compareScaled c k low (q - 2), compareScaled c k high (q - 2) with
  | .gt, .lt => true
  | .eq, _ => m % 2 = 0
  | _, .eq => m % 2 = 0
  | _, _ => false

/-- The decimal number `c · 10 ^ k`, where ten is written as one of the next power. -/
def digitsAt (c : Nat) (k : Int) : Decimal :=
  if c = 10 then ⟨1, k + 1⟩ else ⟨c, k⟩

/-- The multiple of `10 ^ k` that reads back as `m · 2 ^ q`, if one of the two neighbours of
the number does: the nearer one if both do, the upper one if they are equally near. -/
def onGrid? (m : Nat) (q : Int) (k : Int) : Option Decimal :=
  let num := m * 2 ^ q.toNat * 10 ^ (-k).toNat
  let den := 2 ^ (-q).toNat * 10 ^ k.toNat
  let c := num / den
  match readsBack m q c k, readsBack m q (c + 1) k with
  | true, true => if 2 * (num % den) < den then some ⟨c, k⟩ else some (digitsAt (c + 1) k)
  | true, false => some ⟨c, k⟩
  | false, true => some (digitsAt (c + 1) k)
  | false, false => none

/-- The decimal number with the fewest digits that reads back as `m · 2 ^ q`, for positive
`m`.  Seventeen digits always suffice. -/
def decimal (m : Nat) (q : Int) : Decimal :=
  let num := m * 2 ^ q.toNat
  let den := 2 ^ (-q).toNat
  let top := Decimal.magnitude num den
  ((List.range 17).findSome? fun places : Nat => onGrid? m q (top - places)).getD
    (Decimal.ofFraction 17 num den)

/-- The number with the fewest digits that read back, written out in full: never an
exponent, no point behind a whole number, and the sign of a negative zero is kept. -/
def text (x : Float) : Text :=
  match Binary64.ofFloat x with
  | .nan => "NaN".toList
  | .infinite negative => (if negative then ['-'] else []) ++ "inf".toList
  | .finite negative m q =>
    (if negative then ['-'] else []) ++ if m = 0 then ['0'] else (decimal m q).plain

end Shortest

end DeskCalculator
