import DeskCalculator.Number.Decimal

/-!
# How a result is shown

The display shows a whole number below ten thousand million plainly, a number at least that
large or a very small one in scientific form with three significant digits, and every other
number with eight: written out if its first digit stands at a power of ten between the fourth
behind and the seventh before the point, in scientific form otherwise.  Digits are rounded
from the exact value, a half going to the even neighbour.
-/

namespace DeskCalculator

namespace Display

open scoped NatPower

/-- Significant digits of an ordinary result. -/
def ordinaryDigits : Nat := 8

/-- Significant digits of a very large or very small result. -/
def extremeDigits : Nat := 3

/-- The magnitude from which a result is shown as very large. -/
def largeFrom : Nat := 10 ^ (10 : Nat)

/-- The least magnitude that is not shown as very small, which is the binary64 number nearest
to `10 ^ (-7)`, as a fraction. -/
def smallBelow : Nat × Nat := (7555786372591432, 2 ^ (76 : Nat))

/-- The least exponent of the first digit with which an ordinary result is written out. -/
def leastPlainExponent : Int := -4

/-- The text of the positive fraction `num / den`. -/
def fraction (num den : Nat) : Text :=
  if num % den = 0 ∧ num < largeFrom * den then Nat.toDigits 10 (num / den)
  else if largeFrom * den ≤ num ∨ num * smallBelow.2 < smallBelow.1 * den then
    (Decimal.ofFraction extremeDigits num den).scientific
  else
    let d := Decimal.ofFraction ordinaryDigits num den
    if leastPlainExponent ≤ d.firstExponent ∧ d.firstExponent < ordinaryDigits then d.plain
    else d.scientific

/-- What is shown instead of a number when there is none. -/
def error : Text := "Error".toList

/-- The text that shows `x`.  A zero has no sign. -/
def text (x : Float) : Text :=
  match Binary64.ofFloat x with
  | .nan => error
  | .infinite negative => (if negative then ['-'] else []) ++ "Infinity".toList
  | .finite negative m q =>
    if m = 0 then ['0']
    else (if negative then ['-'] else []) ++ fraction (m * 2 ^ q.toNat) (2 ^ (-q).toNat)

/-- The bound below which a result counts as very small is the number nearest to
`10 ^ (-7)`. -/
example : Binary64.ofFloat (nearest 1 (10 ^ 7)) = .finite false smallBelow.1 (-76) := by
  decide +kernel

end Display

end DeskCalculator
