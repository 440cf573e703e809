import DeskCalculator.Display
import DeskCalculator.Expression.Glyph
import DeskCalculator.Expression.Root
import DeskCalculator.Expression.Square
import DeskCalculator.Expression.Value

/-!
# Evaluating a text

A text is brought into primitive form, in which only numbers, operators and groups are left,
and the value of its tokens is taken.  The primitive form of a text is found from its
canonical form: every root group is replaced by the square root of what stands inside of it,
which is evaluated as a text of its own, and then the squares are computed.

Evaluation ends because the text inside of a root group has fewer root signs than the text
around it.  Every error is reported as that of an invalid expression.

A `Calculation` is the evaluation of a text whose blanks at both ends do not count.
-/

namespace DeskCalculator

namespace Expression

mutual

/-- The value of a text. -/
def evaluate (t : Text) : Except EvaluationError Float := do
  let tokens := Token.scan (← (primitive t).mapError .invalid)
  (value tokens).mapError .invalid
termination_by 2 * t.count rootSign + 1
decreasing_by exact Nat.lt_succ_self _

/-- The text with its root groups and squares computed. -/
def primitive (t : Text) : Except EvaluationError Text := do
  let parts ← (pieces (canonical t)).attach.mapM fun p =>
    match p with
    | ⟨.plain c, _⟩ => .ok [c]
    | ⟨.root inner, _⟩ => (evaluate inner).map fun x => Shortest.text x.sqrt
  squares parts.flatten
termination_by 2 * t.count rootSign
decreasing_by
  have h := count_lt_of_mem_pieces (by assumption)
  rw [count_canonical rfl (by decide) (by decide)] at h
  omega

end

/-- What a piece becomes in primitive form. -/
def Piece.expand : Piece → Except EvaluationError Text
  | .plain c => .ok [c]
  | .root inner => (evaluate inner).map fun x => Shortest.text x.sqrt

theorem primitive_eq (t : Text) :
    primitive t =
      (pieces (canonical t)).mapM Piece.expand >>= fun parts => squares parts.flatten := by
  rw [primitive]
  congr 1
  exact (List.mapM_subtype fun p _ => by cases p <;> rfl).trans
    (congrArg _ List.unattach_attach)

end Expression

/-- A text and what its evaluation gives. -/
structure Calculation where
  /-- The text that was evaluated. -/
  expression : Text
  /-- Its value, or why there is none. -/
  outcome : Except EvaluationError Float

namespace Calculation

/-- Evaluates a text, without the blanks at its ends. -/
def ofText (t : Text) : Calculation :=
  ⟨t.trim, Expression.evaluate t.trim⟩

/-- Whether there is a value. -/
def succeeds (c : Calculation) : Bool :=
  c.outcome.toBool

/-- What is shown of the outcome. -/
def display (c : Calculation) : Text :=
  match c.outcome with
  | .ok x => Display.text x
  | .error _ => Display.error

end Calculation

end DeskCalculator
