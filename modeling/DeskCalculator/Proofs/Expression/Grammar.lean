import DeskCalculator.Expression.Value

/-!
# The grammar of arithmetic tokens

An expression is a chain of terms joined by `+` and `-`, a term a chain of powers joined by
`*` and `/`, a power a factor that may be raised to a power, and a factor a group, a factor
with a sign, or a number.  This file holds the derivation trees of that grammar with what
can be said of a tree alone: the tokens that it derives, its value, computed from left to
right, and how deeply it is nested.

A chain is kept as a shorter chain with one link more at its end, so that its operators are
grouped from the left by the shape of the tree.
-/

namespace DeskCalculator

namespace Grammar

mutual

/-- Terms joined by `+` and `-`. -/
inductive Expr where
  | term (t : Term)
  | add (e : Expr) (t : Term)
  | subtract (e : Expr) (t : Term)

/-- Powers joined by `*` and `/`. -/
inductive Term where
  | power (p : Power)
  | multiply (t : Term) (p : Power)
  | divide (t : Term) (p : Power)

/-- A factor, raised to a power or not. -/
inductive Power where
  | factor (f : Factor)
  | raise (f : Factor) (p : Power)

/-- What the operators join. -/
inductive Factor where
  | group (e : Expr)
  | minus (f : Factor)
  | plus (f : Factor)
  | number (digits : Text)

end

mutual

/-- The tokens that an expression derives. -/
def Expr.tokens : Expr → List Token
  | .term t => t.tokens
  | .add e t => e.tokens ++ .operator .add :: t.tokens
  | .subtract e t => e.tokens ++ .operator .subtract :: t.tokens

/-- The tokens that a term derives. -/
def Term.tokens : Term → List Token
  | .power p => p.tokens
  | .multiply t p => t.tokens ++ .operator .multiply :: p.tokens
  | .divide t p => t.tokens ++ .operator .divide :: p.tokens

/-- The tokens that a power derives. -/
def Power.tokens : Power → List Token
  | .factor f => f.tokens
  | .raise f p => f.tokens ++ .operator .raise :: p.tokens

/-- The tokens that a factor derives. -/
def Factor.tokens : Factor → List Token
  | .group e => .opening :: (e.tokens ++ [.closing])
  | .minus f => .operator .subtract :: f.tokens
  | .plus f => .operator .add :: f.tokens
  | .number digits => [.number digits]

end

/-- The quotient of two numbers, unless the divisor is one of the two zeros. -/
def quotient (x y : Float) : Except EvaluationError Float :=
  if y == 0 then .error .divisionByZero else .ok (x / y)

mutual

/-- The value of an expression, or what first goes wrong from left to right. -/
def Expr.value : Expr → Except EvaluationError Float
  | .term t => t.value
  | .add e t => do
    let x ← e.value
    let y ← t.value
    return x + y
  | .subtract e t => do
    let x ← e.value
    let y ← t.value
    return x - y

/-- The value of a term, or what first goes wrong from left to right. -/
def Term.value : Term → Except EvaluationError Float
  | .power p => p.value
  | .multiply t p => do
    let x ← t.value
    let y ← p.value
    return x * y
  | .divide t p => do
    let x ← t.value
    let y ← p.value
    quotient x y

/-- The value of a power, or what first goes wrong from left to right. -/
def Power.value : Power → Except EvaluationError Float
  | .factor f => f.value
  | .raise f p => do
    let x ← f.value
    let y ← p.value
    return x.pow y

/-- The value of a factor, or what first goes wrong from left to right. -/
def Factor.value : Factor → Except EvaluationError Float
  | .group e => e.value
  | .minus f => do
    let x ← f.value
    return -x
  | .plus f => f.value
  | .number digits =>
    match Numeral.read? digits with
    | some x => .ok x
    | none => .error (.invalidNumber digits)

end

mutual

/-- The greatest number of groups, signs and exponents around a number of an expression. -/
def Expr.nesting : Expr → Nat
  | .term t => t.nesting
  | .add e t => max e.nesting t.nesting
  | .subtract e t => max e.nesting t.nesting

/-- The greatest number of groups, signs and exponents around a number of a term. -/
def Term.nesting : Term → Nat
  | .power p => p.nesting
  | .multiply t p => max t.nesting p.nesting
  | .divide t p => max t.nesting p.nesting

/-- The greatest number of groups, signs and exponents around a number of a power. -/
def Power.nesting : Power → Nat
  | .factor f => f.nesting
  | .raise f p => max f.nesting (p.nesting + 1)

/-- The greatest number of groups, signs and exponents around a number of a factor. -/
def Factor.nesting : Factor → Nat
  | .group e => e.nesting + 1
  | .minus f => f.nesting + 1
  | .plus f => f.nesting + 1
  | .number _ => 0

end

/-- What can follow a complete expression: nothing, or tokens that do not start with an
operator. -/
def EndsExpr : List Token → Prop
  | .operator _ :: _ => False
  | _ => True

end Grammar

end DeskCalculator
