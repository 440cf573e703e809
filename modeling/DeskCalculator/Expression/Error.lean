import DeskCalculator.Text.Blank

/-!
# Why an evaluation fails

An `EvaluationError` is one of five causes, or a note that the whole expression is invalid
around another error.  `EvaluationError.rootCause` looks through such notes, and
`EvaluationError.invalid` adds one unless there is one already.
-/

namespace DeskCalculator

/-- Why an expression has no value. -/
inductive EvaluationError where
  /-- The expression ends where an operand is wanted. -/
  | unexpectedEnd
  /-- A group is not closed. -/
  | unclosedGroup
  /-- The text stands where a number is wanted and is none. -/
  | invalidNumber (found : Text)
  /-- A divisor is zero. -/
  | divisionByZero
  /-- Groups, signs and exponents are nested deeper than the limit. -/
  | tooDeep (limit : Nat)
  /-- The expression is invalid because of another error. -/
  | invalidExpression (cause : EvaluationError)
deriving DecidableEq, Repr

namespace EvaluationError

/-- The error as a sentence. -/
def message : EvaluationError → Text
  | unexpectedEnd => "unexpected end of expression".toList
  | unclosedGroup => "missing closing parenthesis".toList
  | invalidNumber found => "invalid number: ".toList ++ found
  | divisionByZero => "division by zero".toList
  | tooDeep limit =>
    "expression nested deeper than ".toList ++ Nat.toDigits 10 limit ++ " levels".toList
  | invalidExpression cause => "invalid expression: ".toList ++ cause.message

/-- Whether the error only notes that the expression is invalid. -/
def isInvalidExpression : EvaluationError → Bool
  | invalidExpression _ => true
  | _ => false

/-- Notes that the whole expression is invalid, once. -/
def invalid (e : EvaluationError) : EvaluationError :=
  if e.isInvalidExpression then e else invalidExpression e

/-- The error under all notes. -/
def rootCause : EvaluationError → EvaluationError
  | invalidExpression cause => cause.rootCause
  | e => e

/-- A short name for the kind of the root cause. -/
def kind (e : EvaluationError) : Text :=
  match e.rootCause with
  | unexpectedEnd => "unexpected_end".toList
  | unclosedGroup => "unbalanced_paren".toList
  | invalidNumber _ => "invalid_number".toList
  | divisionByZero => "division_by_zero".toList
  | tooDeep _ => "too_deep".toList
  | invalidExpression _ => "invalid_expression".toList

/-- The errors under the notes of `e`, from the outside in. -/
def sources : EvaluationError → List EvaluationError
  | invalidExpression cause => cause :: cause.sources
  | _ => []

theorem invalid_invalid (e : EvaluationError) : e.invalid.invalid = e.invalid := by
  cases e <;> rfl

theorem rootCause_invalid (e : EvaluationError) : e.invalid.rootCause = e.rootCause := by
  cases e <;> rfl

theorem isInvalidExpression_rootCause (e : EvaluationError) :
    e.rootCause.isInvalidExpression = false := by
  induction e with
  | invalidExpression cause ih => exact ih
  | _ => rfl

end EvaluationError

end DeskCalculator
