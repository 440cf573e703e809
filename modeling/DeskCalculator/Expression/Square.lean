import DeskCalculator.Number.Numeral
import DeskCalculator.Number.Shortest
import DeskCalculator.Expression.Error

/-!
# Squares

A `²` squares the run of digits and points in front of it.  The pass goes over the text from
left to right and looks at what it has written so far, so that a number which it has written
itself is squared by a `²` that follows.  A `²` without digits or points in front of it is
kept.
-/

namespace DeskCalculator

namespace Expression

/-- The square sign. -/
def squareSign : Char := '²'

/-- Goes on with the squares of a text when the part before it has become `written`, last
character first. -/
def squaresAfter (written : Text) : Text → Except EvaluationError Text
  | [] => .ok written.reverse
  | c :: t =>
    if c = squareSign ∧ written.takeWhile Numeral.isPart ≠ [] then
      let run := (written.takeWhile Numeral.isPart).reverse
      match Numeral.read? run with
      | some x =>
        squaresAfter ((Shortest.text (x * x)).reverse ++ written.dropWhile Numeral.isPart) t
      | none => .error (.invalidExpression (.invalidNumber run))
    else squaresAfter (c :: written) t

/-- The text with its squares computed. -/
def squares (t : Text) : Except EvaluationError Text :=
  squaresAfter [] t

end Expression

end DeskCalculator
