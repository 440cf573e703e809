import DeskCalculator.Expression.Value

/-!
# The value of a token list by recursive descent

The value of a token list can also be computed along the grammar, with one function for each kind of
expression.  Each function reads what it can from the front of the tokens and gives the number and
the tokens behind it, which are fewer (`Reading`); so the functions, which call each other, come to
an end.  A chain of terms or of powers is read in a loop that keeps the number so far.

Groups, signs and exponents are read one level deeper than what they belong to.  The level is passed
on to them and no further.
-/

namespace DeskCalculator

namespace Expression

namespace Descent

/-- A number that has been read from the front of the tokens `ts`. -/
structure Reading (ts : List Token) where
  value : Float
  /-- The tokens behind the number. -/
  rest : List Token
  rest_lt : rest.length < ts.length

/-- The next token, if it is one of the operators `ops`, and the tokens behind it. -/
def operator? (ops : List Operator) : List Token → Option (Operator × List Token)
  | .operator op :: ts => if op ∈ ops then some (op, ts) else none
  | _ => none

theorem operator?_eq_some_iff {ops : List Operator} {ts us : List Token} {op : Operator} :
    operator? ops ts = some (op, us) ↔ ts = .operator op :: us ∧ op ∈ ops := by
  unfold operator?
  split
  · rename_i op' ts'
    constructor
    · intro h
      obtain ⟨hop, heq⟩ := Option.ite_none_right_eq_some.1 h
      cases heq
      exact ⟨rfl, hop⟩
    · rintro ⟨heq, hop⟩
      cases heq
      exact if_pos hop
  · rename_i hno
    exact ⟨nofun, fun h => absurd h.1 (hno op us)⟩

namespace Reading

variable {ts us : List Token} {ops : List Operator} {op : Operator}

/-- The number `x`, read from a sign and the reading `r` behind it. -/
def signed (sign : Token) (r : Reading ts) (x : Float) : Reading (sign :: ts) :=
  ⟨x, r.rest, Nat.lt_succ_of_lt r.rest_lt⟩

theorem length_lt_of_rest_eq {t : Token} {r : Reading ts} (h : r.rest = t :: us) :
    us.length < ts.length := by
  have hlt := r.rest_lt
  rw [h] at hlt
  exact Nat.lt_of_succ_lt hlt

/-- Closes the group of which `r` has been read behind the opening parenthesis. -/
def close (r : Reading ts) : Except EvaluationError (Reading (.opening :: ts)) :=
  match h : r.rest with
  | .closing :: us => .ok ⟨r.value, us, Nat.lt_succ_of_lt (length_lt_of_rest_eq h)⟩
  | _ => .error .unclosedGroup

theorem length_lt_of_operator? (r : Reading ts) (h : operator? ops r.rest = some (op, us)) :
    us.length < r.rest.length := by
  rw [(operator?_eq_some_iff.1 h).1]
  exact Nat.lt_succ_self _

/-- The reading `r`, continued over an operator and the reading `s` behind it to the number `x`. -/
def continued (r : Reading ts) (h : operator? ops r.rest = some (op, us)) (s : Reading us)
    (x : Float) : Reading ts :=
  ⟨x, s.rest, Nat.lt_trans s.rest_lt (Nat.lt_trans (r.length_lt_of_operator? h) r.rest_lt)⟩

@[simp]
theorem rest_continued (r : Reading ts) (h : operator? ops r.rest = some (op, us))
    (s : Reading us) (x : Float) : (r.continued h s x).rest = s.rest := rfl

end Reading

/-- Reads one level deeper, unless the level `depth` is the deepest. -/
def nested {α : Type} (depth : Nat) (read : Nat → Except EvaluationError α) :
    Except EvaluationError α :=
  if nestingLimit ≤ depth then .error (.tooDeep nestingLimit) else read (depth + 1)

mutual

/-- Reads terms joined by `+` and `-`. -/
def expr (depth : Nat) (ts : List Token) : Except EvaluationError (Reading ts) := do
  sum depth (← term depth ts)
termination_by (ts.length, 3)
decreasing_by
  · exact .right _ (by decide)
  · exact .left _ _ (Reading.rest_lt _)

/-- Goes on with a sum of which `r` has been read. -/
def sum (depth : Nat) {ts : List Token} (r : Reading ts) :
    Except EvaluationError (Reading ts) :=
  match h : operator? [.add, .subtract] r.rest with
  | none => .ok r
  | some (op, us) => do
    let s ← term depth us
    sum depth (r.continued h s (← op.apply r.value s.value))
termination_by (r.rest.length, 0)
decreasing_by
  · exact .left _ _ (r.length_lt_of_operator? h)
  · exact .left _ _ (Nat.lt_trans s.rest_lt (r.length_lt_of_operator? h))

/-- Reads powers joined by `*` and `/`. -/
def term (depth : Nat) (ts : List Token) : Except EvaluationError (Reading ts) := do
  product depth (← power depth ts)
termination_by (ts.length, 2)
decreasing_by
  · exact .right _ (by decide)
  · exact .left _ _ (Reading.rest_lt _)

/-- Goes on with a product of which `r` has been read. -/
def product (depth : Nat) {ts : List Token} (r : Reading ts) :
    Except EvaluationError (Reading ts) :=
  match h : operator? [.multiply, .divide] r.rest with
  | none => .ok r
  | some (op, us) => do
    let s ← power depth us
    product depth (r.continued h s (← op.apply r.value s.value))
termination_by (r.rest.length, 0)
decreasing_by
  · exact .left _ _ (r.length_lt_of_operator? h)
  · exact .left _ _ (Nat.lt_trans s.rest_lt (r.length_lt_of_operator? h))

/-- Reads a factor that may be raised to a power. -/
def power (depth : Nat) (ts : List Token) : Except EvaluationError (Reading ts) := do
  let r ← factor depth ts
  match h : operator? [.raise] r.rest with
  | none => .ok r
  | some (op, us) =>
    let s ← nested depth fun d => power d us
    .ok (r.continued h s (← op.apply r.value s.value))
termination_by (ts.length, 1)
decreasing_by
  · exact .right _ (by decide)
  · exact .left _ _ (Nat.lt_trans (r.length_lt_of_operator? h) r.rest_lt)

/-- Reads a group, a factor with a sign, or a number. -/
def factor (depth : Nat) : (ts : List Token) → Except EvaluationError (Reading ts)
  | [] => .error .unexpectedEnd
  | .opening :: ts => do
    let r ← nested depth fun d => expr d ts
    r.close
  | .operator .subtract :: ts => do
    let r ← nested depth fun d => factor d ts
    .ok (r.signed _ (-r.value))
  | .operator .add :: ts => do
    let r ← nested depth fun d => factor d ts
    .ok (r.signed _ r.value)
  | .number digits :: ts =>
    match Numeral.read? digits with
    | some x => .ok ⟨x, ts, Nat.lt_succ_self _⟩
    | none => .error (.invalidNumber digits)
  | t :: _ => .error (.invalidNumber t.text)
termination_by ts => (ts.length, 0)

end

end Descent

/-- The value of a token list by recursive descent.  The tokens behind the expression at its front
are not looked at. -/
def descend (ts : List Token) : Except EvaluationError Float :=
  (Descent.expr 0 ts).map Descent.Reading.value

end Expression

end DeskCalculator
