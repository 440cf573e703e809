import DeskCalculator.Expression.Token
import DeskCalculator.Expression.Error

/-!
# The value of a token list

Tokens are read once from left to right.  What has been begun and waits for its operand is
kept on a stack of frames: open groups, signs, and operators with their left operand.  At
each point either an operand is wanted (`operandNext`) or one has just been read
(`operatorNext`).  An operator that has been read first lets the frames that bind at least as
strongly complete their work.

Signs bind strongest, then raising to a power, then multiplication and division, then
addition and subtraction.  Powers are grouped from the right, all others from the left.  The
value stops at the first token that can neither continue the expression nor close a group;
what follows is not looked at.
-/

namespace DeskCalculator

namespace Operator

/-- How strongly the operator binds. -/
def strength : Operator → Nat
  | add | subtract => 1
  | multiply | divide => 2
  | raise => 3

/-- The least strength of the operators that are completed before this one when they stand
to its left.  A power waits for a power on its right. -/
def settles : Operator → Nat
  | raise => 4
  | op => op.strength

/-- The operator applied to two numbers.  Division by either zero fails. -/
def apply (op : Operator) (x y : Float) : Except EvaluationError Float :=
  match op with
  | add => .ok (x + y)
  | subtract => .ok (x - y)
  | multiply => .ok (x * y)
  | divide => if y == 0 then .error .divisionByZero else .ok (x / y)
  | raise => .ok (Float.pow x y)

end Operator

namespace Expression

/-- Something begun that waits for the operand to its right. -/
inductive Frame where
  /-- A group that has been opened. -/
  | group
  /-- A sign, which is a minus or a plus. -/
  | sign (negative : Bool)
  /-- An operator with its left operand. -/
  | pending (op : Operator) (left : Float)

/-- Whether the frame counts as a level of nesting. -/
def Frame.nests : Frame → Bool
  | .group => true
  | .sign _ => true
  | .pending op _ => op = .raise

/-- The number of levels of nesting. -/
def nesting (fs : List Frame) : Nat :=
  fs.countP Frame.nests

/-- The greatest number of levels of nesting. -/
def nestingLimit : Nat := 256

/-- Puts a frame on the stack, unless that nests too deeply. -/
def push (f : Frame) (fs : List Frame) : Except EvaluationError (List Frame) :=
  if f.nests && nestingLimit ≤ nesting fs then .error (.tooDeep nestingLimit)
  else .ok (f :: fs)

/-- Completes the frames at the top of the stack with the operand `x`: all signs, and the
operators of at least the given strength. -/
def settle (strength : Nat) (x : Float) :
    List Frame → Except EvaluationError (Float × List Frame)
  | .sign negative :: fs => settle strength (if negative then -x else x) fs
  | .pending op left :: fs =>
    if strength ≤ op.strength then do settle strength (← op.apply left x) fs
    else .ok (x, .pending op left :: fs)
  | fs => .ok (x, fs)

mutual

/-- The value of the tokens when an operand is wanted. -/
def operandNext (fs : List Frame) : List Token → Except EvaluationError Float
  | [] => .error .unexpectedEnd
  | .number digits :: ts =>
    match Numeral.read? digits with
    | some x => operatorNext x fs ts
    | none => .error (.invalidNumber digits)
  | .opening :: ts => do operandNext (← push .group fs) ts
  | .operator .subtract :: ts => do operandNext (← push (.sign true) fs) ts
  | .operator .add :: ts => do operandNext (← push (.sign false) fs) ts
  | t :: _ => .error (.invalidNumber t.text)

/-- The value of the tokens when the operand `x` has been read. -/
def operatorNext (x : Float) (fs : List Frame) : List Token → Except EvaluationError Float
  | .operator op :: ts => do
    let (y, gs) ← settle op.settles x fs
    operandNext (← push (.pending op y) gs) ts
  | .closing :: ts => do
    match ← settle 0 x fs with
    | (y, .group :: gs) => operatorNext y gs ts
    | (y, _) => .ok y
  | _ => do
    match ← settle 0 x fs with
    | (_, .group :: _) => .error .unclosedGroup
    | (y, _) => .ok y

end

/-- The value of a token list. -/
def value (ts : List Token) : Except EvaluationError Float :=
  operandNext [] ts

end Expression

end DeskCalculator
