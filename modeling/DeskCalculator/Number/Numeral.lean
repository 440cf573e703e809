import DeskCalculator.Number.Decimal

/-!
# Numerals

A numeral is a sign, if any, followed by `inf`, `infinity` or `nan` in any letter case, or by
decimal digits with at most one point among them and possibly an exponent.  `Numeral.ofText?`
recognises numerals, `Numeral.value` is the binary64 number nearest to one, and
`Numeral.read?` does both.
-/

namespace DeskCalculator

/-- A number as it is written. -/
inductive Numeral where
  /-- The word for what is not a number. -/
  | nan
  /-- The word for infinity. -/
  | infinite (negative : Bool)
  /-- Digits, with the decimal number that they make. -/
  | decimal (negative : Bool) (magnitude : Decimal)
deriving DecidableEq, Repr

namespace Numeral

/-- Takes a sign off the front: whether it is a minus, and the rest. -/
def splitSign : Text → Bool × Text
  | '+' :: t => (false, t)
  | '-' :: t => (true, t)
  | t => (false, t)

/-- The exponent part of a numeral: nothing, or `e` or `E` before an integer. -/
def exponent? : Text → Option Int
  | [] => some 0
  | c :: t =>
    let (negative, digits) := splitSign t
    if (c = 'e' ∨ c = 'E') ∧ digits ≠ [] ∧ digits.all Char.isDigit then
      let n := Nat.ofDigitChars 10 digits 0
      some (if negative then -(n : Int) else n)
    else none

/-- A numeral of digits without its sign: digits with at most one point, at least one digit,
and an exponent part. -/
def unsigned? (t : Text) : Option Decimal :=
  let whole := t.takeWhile Char.isDigit
  let (places, rest) := match t.dropWhile Char.isDigit with
    | '.' :: r => (r.takeWhile Char.isDigit, r.dropWhile Char.isDigit)
    | r => ([], r)
  if whole = [] ∧ places = [] then none
  else (exponent? rest).map fun e =>
    ⟨Nat.ofDigitChars 10 (whole ++ places) 0, e - places.length⟩

/-- The numeral that `t` is, if it is one. -/
def ofText? (t : Text) : Option Numeral :=
  let (negative, body) := splitSign t
  let word := body.map Char.toLower
  if word = "inf".toList ∨ word = "infinity".toList then some (.infinite negative)
  else if word = "nan".toList then some .nan
  else (unsigned? body).map (.decimal negative)

/-- The binary64 number nearest to a numeral. -/
def value : Numeral → Float
  | .nan => Binary64.notANumber
  | .infinite negative => if negative then -Binary64.infinity else Binary64.infinity
  | .decimal negative d => if negative then -d.value else d.value

/-- The number that `t` is read as, if `t` is a numeral. -/
def read? (t : Text) : Option Float :=
  (ofText? t).map value

/-! ### Plain runs of digits and points -/

/-- Whether `c` can stand in a numeral typed without sign and exponent: an ASCII digit or
the point. -/
def isPart (c : Char) : Bool :=
  c.isDigit || c == '.'

/-- The run of digits and points at the very end of `t`. -/
def trailing (t : Text) : Text :=
  (t.reverse.takeWhile isPart).reverse

theorem isPart_of_mem_trailing {t : Text} {c : Char} (h : c ∈ trailing t) : isPart c :=
  List.all_eq_true.1 (List.all_takeWhile (l := t.reverse)) c (List.mem_reverse.1 h)

end Numeral

end DeskCalculator
