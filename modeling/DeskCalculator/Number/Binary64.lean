/-!
# Binary64 numbers, seen exactly

A finite binary64 number is `± m · 2 ^ q` with natural `m`.  `Binary64.ofFloat` takes a
`Float` apart into this form by the fields of its bit pattern: one bit of sign, eleven of
exponent, fifty-two of fraction.  In the other direction `nearest num den` is the number
closest to the fraction `num / den`; of two equally close ones it takes the one with the
even significand, and a fraction beyond the largest finite number gives infinity.

A power with an integer exponent is written throughout with one factor above and one below
the line, `2 ^ q.toNat` and `2 ^ (-q).toNat`, of which one is always `1`.
-/

namespace DeskCalculator

namespace NatPower

-- powers of natural numbers, whatever other instances there are
attribute [scoped instance (high)] instPowNat

end NatPower

open scoped NatPower

/-- A binary64 number taken apart. -/
inductive Binary64 where
  /-- Not a number. -/
  | nan
  /-- An infinity, with its sign (`true` for the negative one). -/
  | infinite (negative : Bool)
  /-- The number `± m · 2 ^ q`. -/
  | finite (negative : Bool) (m : Nat) (q : Int)
deriving DecidableEq, Repr

namespace Binary64

/-- Number of bits of the fraction field. -/
def fractionBits : Nat := 52

/-- The least exponent `q`, which is that of the subnormal numbers. -/
def leastExponent : Int := -1074

/-- The exponent field of the infinities and of what is not a number. -/
def topField : Nat := 2047

/-- The parts of a bit pattern.  A field of exponent zero has no leading significand bit,
every other finite one has it. -/
def ofBits (bits : Nat) : Binary64 :=
  let negative := bits / 2 ^ (63 : Nat) % 2 = 1
  let field := bits / 2 ^ fractionBits % 2 ^ (11 : Nat)
  let fraction := bits % 2 ^ fractionBits
  if field = topField then
    if fraction = 0 then .infinite negative else .nan
  else if field = 0 then
    .finite negative fraction leastExponent
  else
    .finite negative (2 ^ fractionBits + fraction) (leastExponent + (field - 1 : Nat))

/-- The parts of a number. -/
def ofFloat (x : Float) : Binary64 :=
  ofBits x.toBits.toNat

/-- The infinity above all finite numbers. -/
def infinity : Float := Float.ofBits 0x7ff0000000000000

/-- The value that is not a number. -/
def notANumber : Float := Float.ofBits 0x7ff8000000000000

end Binary64

/-! ### Rounding to nearest -/

/-- The quotient of two natural numbers, rounded to the nearest integer; a half goes to the
even neighbour. -/
def roundDiv (num den : Nat) : Nat :=
  let quot := num / den
  match compare (2 * (num % den)) den with
  | .lt => quot
  | .eq => quot + quot % 2
  | .gt => quot + 1

/-- The exponent `q` for which `num / den` lies between `2 ^ 52 · 2 ^ q` and
`2 ^ 53 · 2 ^ q`, or the least exponent if that is larger. -/
def scaleOf (num den : Nat) : Int :=
  let q : Int := (num.log2 : Int) - den.log2 - Binary64.fractionBits
  let fits := den * 2 ^ q.toNat * 2 ^ Binary64.fractionBits ≤ num * 2 ^ (-q).toNat
  max Binary64.leastExponent (if fits then q else q - 1)

/-- The bit pattern of the number nearest to `num / den`.  The significand is added to the
exponent field, so that one which rounding has carried to `2 ^ 53` moves the exponent up by
itself. -/
def nearestBits (num den : Nat) : Nat :=
  if num = 0 then 0
  else
    let q := scaleOf num den
    let significand := roundDiv (num * 2 ^ (-q).toNat) (den * 2 ^ q.toNat)
    min (Binary64.topField * 2 ^ Binary64.fractionBits)
      ((q - Binary64.leastExponent).toNat * 2 ^ Binary64.fractionBits + significand)

/-- The binary64 number nearest to `num / den`, for positive `den`. -/
def nearest (num den : Nat) : Float :=
  Float.ofBits (UInt64.ofNat (nearestBits num den))

end DeskCalculator
