import DeskCalculator.Number.Numeral

/-!
# Function keys

A function key replaces the number on the display by a function of it.  The trigonometric
functions take their operand in degrees.  Where a function is not defined the result is not a
number.
-/

namespace DeskCalculator

/-- The functions of one number. -/
inductive UnaryFunction where
  | sine
  | cosine
  | tangent
  | logarithm
  | negate
  | percent
  | squareRoot
  | square
deriving DecidableEq, Repr

namespace UnaryFunction

/-- All functions. -/
def all : List UnaryFunction :=
  [sine, cosine, tangent, logarithm, negate, percent, squareRoot, square]

/-- One degree in radians: the binary64 number nearest to `π / 180`. -/
def degree : Float := Float.ofBits 0x3f91df46a2529d39

/-- The function applied to a number. -/
def apply (f : UnaryFunction) (x : Float) : Float :=
  match f with
  | sine => (x * degree).sin
  | cosine => (x * degree).cos
  | tangent => (x * degree).tan
  | logarithm => if 0 < x then x.log else Binary64.notANumber
  | negate => -x
  | percent => x / 100
  | squareRoot => if 0 ≤ x then x.sqrt else Binary64.notANumber
  | square => x * x

/-- The name of the function. -/
def name : UnaryFunction → Text
  | sine => "sin".toList
  | cosine => "cos".toList
  | tangent => "tan".toList
  | logarithm => "ln".toList
  | negate => "neg".toList
  | percent => "%".toList
  | squareRoot => "sqrt".toList
  | square => "sq".toList

end UnaryFunction

end DeskCalculator
