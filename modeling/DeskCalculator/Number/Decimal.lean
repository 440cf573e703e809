import DeskCalculator.Text.Blank
import DeskCalculator.Number.Binary64

/-!
# Decimal numbers

A `Decimal` is `coefficient · 10 ^ exponent`.  It is written out in full by `Decimal.plain`,
which never uses an exponent, and in scientific form by `Decimal.scientific`.  The number
nearest to it is `Decimal.value`.
-/

namespace DeskCalculator

open scoped NatPower

/-- The number `coefficient · 10 ^ exponent`. -/
structure Decimal where
  coefficient : Nat
  exponent : Int
deriving DecidableEq, Repr

namespace Decimal

/-- The exponent above which every positive decimal number is beyond the binary64 range,
and the exponent below which it rounds to zero, apart from the size of the coefficient. -/
def exponentRange : Nat := 400

/-- The binary64 number nearest to `d`.  Exponents far out of range are settled without
computing the power of ten. -/
def value (d : Decimal) : Float :=
  if d.coefficient = 0 then nearest 0 1
  else if (exponentRange : Int) < d.exponent then Binary64.infinity
  else if d.exponent < -((exponentRange + d.coefficient.log2 : Nat) : Int) then nearest 0 1
  else nearest (d.coefficient * 10 ^ d.exponent.toNat) (10 ^ (-d.exponent).toNat)

/-- The digits with a point before the last `places` of them, and zeros put in front so that
at least one digit stands before the point.  Without places there is no point. -/
def withPoint (digits : Text) (places : Nat) : Text :=
  if places = 0 then digits
  else
    let padded := List.replicate (places + 1 - digits.length) '0' ++ digits
    padded.take (padded.length - places) ++ '.' :: padded.drop (padded.length - places)

/-- The number written out in full, without exponent. -/
def plain (d : Decimal) : Text :=
  withPoint (Nat.toDigits 10 d.coefficient ++ List.replicate d.exponent.toNat '0')
    (-d.exponent).toNat

/-- An exponent with its sign and at least two digits. -/
def exponentText (e : Int) : Text :=
  let digits := Nat.toDigits 10 e.natAbs
  (if e < 0 then '-' else '+') :: (List.replicate (2 - digits.length) '0' ++ digits)

/-- The number in scientific form: a point after the first digit, then the exponent of that
digit. -/
def scientific (d : Decimal) : Text :=
  let digits := Nat.toDigits 10 d.coefficient
  withPoint digits (digits.length - 1) ++
    'e' :: exponentText (d.exponent + (digits.length - 1 : Nat))

/-- The exponent `e` for which the positive fraction `num / den` lies between `10 ^ e` and
`10 ^ (e + 1)`, the former included. -/
def magnitude (num den : Nat) : Int :=
  if den ≤ num then ((Nat.toDigits 10 (num / den)).length - 1 : Nat)
  else -((Nat.toDigits 10 ((den - 1) / num)).length : Int)

/-- The positive fraction `num / den` rounded to `digits` significant digits, a half going
to the even neighbour.  A coefficient that rounding has carried to one digit more is cut
back. -/
def ofFraction (digits num den : Nat) : Decimal :=
  let e := magnitude num den - (digits - 1 : Nat)
  let c := roundDiv (num * 10 ^ (-e).toNat) (den * 10 ^ e.toNat)
  if c = 10 ^ digits then ⟨10 ^ (digits - 1), e + 1⟩ else ⟨c, e⟩

/-- The exponent of the first digit. -/
def firstExponent (d : Decimal) : Int :=
  d.exponent + ((Nat.toDigits 10 d.coefficient).length - 1 : Nat)

end Decimal

end DeskCalculator
