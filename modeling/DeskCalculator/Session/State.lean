import DeskCalculator.Number.Numeral
import DeskCalculator.Expression.Token

/-!
# The state of the keypad

The user builds an expression key by key and sees a display: while typing the number that is
being typed, after a computation its result.  This file holds what the editing keys do to the
two.  After a computation a digit, a point or a parenthesis starts a new expression, and an
operator goes on from the result.
-/

namespace DeskCalculator

/-- What the user has before them. -/
structure State where
  /-- The expression under construction. -/
  expression : Text
  /-- What is shown. -/
  display : Text
  /-- Whether the display holds a result that no edit has followed yet. -/
  justComputed : Bool
deriving DecidableEq, Repr

/-- What the user is doing. -/
inductive Mode where
  /-- Nothing has been typed. -/
  | empty
  /-- An expression is being typed. -/
  | editing
  /-- A result is shown. -/
  | computed
deriving DecidableEq, Repr

namespace State

/-- The state before any key is pressed. -/
def initial : State := ⟨[], ['0'], false⟩

/-- What the user is doing. -/
def mode (s : State) : Mode :=
  if s.justComputed then .computed else if s.expression = [] then .empty else .editing

/-- The number being typed at the end of an expression, or zero if there is none. -/
def preview (t : Text) : Text :=
  if Numeral.trailing t = [] then ['0'] else Numeral.trailing t

/-- The state with the expression `t` and its preview. -/
def editing (t : Text) : State := ⟨t, preview t, false⟩

/-- Types a digit.  A number that is no digit is ignored. -/
def digit (s : State) (n : Nat) : State :=
  if 9 < n then s
  else editing ((if s.justComputed then [] else s.expression) ++ [n.digitChar])

/-- Types the decimal point.  After a computation a zero goes before it. -/
def point (s : State) : State :=
  editing ((if s.justComputed then ['0'] else s.expression) ++ ['.'])

/-- Types an operator.  After a computation the result becomes its left operand.  Otherwise an
empty expression stays as it is, and an operator at the end is replaced.  The display keeps
the left operand. -/
def operator (s : State) (op : Operator) : State :=
  if s.justComputed then ⟨s.display ++ [op.glyph], s.display, false⟩
  else if s.expression = [] then s
  else
    let before :=
      if s.expression.getLast?.any Operator.isGlyph then s.expression.dropLast else s.expression
    { s with expression := before ++ [op.glyph] }

/-- Closes a group if one is open, and opens one otherwise. -/
def parenthesis (s : State) : State :=
  let t := if s.justComputed then [] else s.expression
  editing (t ++ [if t.count ')' < t.count '(' then ')' else '('])

/-- Takes the last character away.  If no number ends where it stood, the display goes back to
the number before the character that is now the last. -/
def backspace (s : State) : State :=
  let t := s.expression.dropLast
  ⟨t, if Numeral.trailing t = [] then preview t.dropLast else Numeral.trailing t, false⟩

theorem preview_ne_nil (t : Text) : preview t ≠ [] := by
  unfold preview
  split
  · exact List.cons_ne_nil _ _
  · assumption

theorem expression_editing (t : Text) : (editing t).expression = t := rfl

end State

end DeskCalculator
