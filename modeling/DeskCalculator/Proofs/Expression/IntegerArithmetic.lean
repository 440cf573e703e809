import DeskCalculator.Proofs.Expression.Spelling
import DeskCalculator.Proofs.Number.DisplayRounding
import DeskCalculator.Proofs.Number.Integer

/-!
# Integer arithmetic is exact

Sums, differences, products, signs and groups of integers have the integer as their value that they
have in mathematics, as long as no number on the way is beyond `2 ^ 53`: such integers are numbers,
and an operation whose result is a number does not round (`gives_expr`).  A result below `10 ^ 10`
is shown digit by digit, so that what is shown of a text that spells such an expression is the
integer itself (`evaluate_integer`).
-/

namespace DeskCalculator

open Binary64 (Denotes Representable exactBound)

namespace Grammar

/-! ### Values among the integers -/

/-- An integer, if all integers of its size are numbers. -/
def within (n : ℤ) : Option ℤ :=
  if |n| ≤ exactBound then some n else none

/-- What an operation makes of two integers. -/
def combined (f : ℤ → ℤ → ℤ) (i j : Option ℤ) : Option ℤ := do
  within (f (← i) (← j))

mutual

/-- The value of an expression among the integers, if it has one: all numbers are written with
digits alone, nothing is divided or raised to a power, and no number on the way is too large. -/
def Expr.integer? : Expr → Option ℤ
  | .term t => t.integer?
  | .add e t => combined (· + ·) e.integer? t.integer?
  | .subtract e t => combined (· - ·) e.integer? t.integer?

/-- The value of a term among the integers, if it has one. -/
def Term.integer? : Term → Option ℤ
  | .power p => p.integer?
  | .multiply t p => combined (· * ·) t.integer? p.integer?
  | .divide _ _ => none

/-- The value of a power among the integers, if it has one. -/
def Power.integer? : Power → Option ℤ
  | .factor f => f.integer?
  | .raise _ _ => none

/-- The value of a factor among the integers, if it has one. -/
def Factor.integer? : Factor → Option ℤ
  | .group e => e.integer?
  | .minus f => f.integer?.map (- ·)
  | .plus f => f.integer?
  | .number digits =>
    if digits ≠ [] ∧ digits.all Char.isDigit then within (Nat.ofDigitChars 10 digits 0 : ℕ)
    else none

end

lemma within_eq_some {m n : ℤ} (h : within m = some n) : m = n ∧ |n| ≤ exactBound := by
  rw [within] at h
  split at h
  · rename_i hle
    obtain rfl := Option.some.inj h
    exact ⟨rfl, hle⟩
  · cases h

end Grammar

namespace Expression

open Grammar

/-! ### Values among the numbers -/

/-- The outcome is a number that is the integer exactly. -/
def Gives (u : Except EvaluationError Float) (n : ℤ) : Prop :=
  ∃ x, u = .ok x ∧ Denotes x n

/-- An operation on numbers that is exact where its result is a number. -/
lemma gives_combined {f : ℤ → ℤ → ℤ} {g : Float → Float → Float}
    (hexact : ∀ {x y : Float} {m n : ℤ}, Denotes x m → Denotes y n →
      Representable (f m n : ℚ) → Denotes (g x y) (f m n : ℚ))
    {u v : Except EvaluationError Float} {i j : Option ℤ} {n : ℤ}
    (hu : ∀ m, i = some m → Gives u m) (hv : ∀ m, j = some m → Gives v m)
    (h : combined f i j = some n) : Gives (do return g (← u) (← v)) n := by
  obtain ⟨a, rfl, h⟩ := Option.bind_eq_some_iff.1 h
  obtain ⟨b, rfl, h⟩ := Option.bind_eq_some_iff.1 h
  obtain ⟨rfl, hle⟩ := within_eq_some h
  obtain ⟨x, rfl, hx⟩ := hu a rfl
  obtain ⟨y, rfl, hy⟩ := hv b rfl
  exact ⟨g x y, rfl, hexact hx hy (Binary64.representable_intCast hle)⟩

lemma denotes_add {x y : Float} {m n : ℤ} (hx : Denotes x m) (hy : Denotes y n)
    (h : Representable ((m + n : ℤ) : ℚ)) : Denotes (x + y) ((m + n : ℤ) : ℚ) := by
  rw [Int.cast_add] at h ⊢
  exact hx.add hy h

lemma denotes_sub {x y : Float} {m n : ℤ} (hx : Denotes x m) (hy : Denotes y n)
    (h : Representable ((m - n : ℤ) : ℚ)) : Denotes (x - y) ((m - n : ℤ) : ℚ) := by
  rw [Int.cast_sub] at h ⊢
  exact hx.subtract hy h

lemma denotes_mul {x y : Float} {m n : ℤ} (hx : Denotes x m) (hy : Denotes y n)
    (h : Representable ((m * n : ℤ) : ℚ)) : Denotes (x * y) ((m * n : ℤ) : ℚ) := by
  rw [Int.cast_mul] at h ⊢
  exact hx.multiply hy h

/-- A literal that is written with digits alone. -/
lemma gives_number {digits : Text} {n : ℤ} (h : (Factor.number digits).integer? = some n) :
    Gives (Factor.number digits).value n := by
  rw [Factor.integer?] at h
  split at h
  · rename_i hdigits
    obtain ⟨rfl, hle⟩ := within_eq_some h
    obtain ⟨x, hread, hx⟩ :=
      Numeral.exists_read?_digits (List.all_eq_true.1 hdigits.2) hdigits.1 (by simpa using hle)
    exact ⟨x, by rw [Factor.value, hread], hx⟩
  · cases h

mutual

lemma gives_expr (e : Expr) {n : ℤ} (h : e.integer? = some n) : Gives e.value n := by
  cases e with
  | term t => exact gives_term t h
  | add e t => exact gives_combined denotes_add (fun _ => gives_expr e) (fun _ => gives_term t) h
  | subtract e t =>
    exact gives_combined denotes_sub (fun _ => gives_expr e) (fun _ => gives_term t) h

lemma gives_term (t : Term) {n : ℤ} (h : t.integer? = some n) : Gives t.value n := by
  cases t with
  | power p => exact gives_power p h
  | multiply t p =>
    exact gives_combined denotes_mul (fun _ => gives_term t) (fun _ => gives_power p) h
  | divide t p => cases h

lemma gives_power (p : Power) {n : ℤ} (h : p.integer? = some n) : Gives p.value n := by
  cases p with
  | factor f => exact gives_factor f h
  | raise f p => cases h

lemma gives_factor (f : Factor) {n : ℤ} (h : f.integer? = some n) : Gives f.value n := by
  cases f with
  | group e => exact gives_expr e h
  | minus f =>
    obtain ⟨m, hm, rfl⟩ := Option.map_eq_some_iff.1 h
    obtain ⟨x, hvalue, hx⟩ := gives_factor f hm
    refine ⟨-x, by rw [Factor.value, hvalue]; rfl, ?_⟩
    rw [Int.cast_neg]
    exact hx.negate
  | plus f => exact gives_factor f h
  | number digits => exact gives_number h

end

/-- **Integer arithmetic is exact.**  Take an expression of integer literals with sums, differences,
products, signs and groups, nested at most 256 levels deep, in which no literal and no intermediate
result is beyond `2 ^ 53`.  If its value is below `10 ^ 10` in magnitude, then every text that
spells it evaluates, and what is shown is the decimal text of the value. -/
theorem evaluate_integer {e : Expr} {n : ℤ} (h : e.integer? = some n) (he : e.nesting ≤ 256)
    (hn : |n| < 10 ^ 10) {t : Text} (ht : Spells e.tokens t) :
    ∃ x, evaluate t = .ok x ∧ Display.text x = (toString n).toList := by
  obtain ⟨x, hvalue, hx⟩ := gives_expr e h
  refine ⟨x, ?_, Display.text_of_denotes hx hn⟩
  rw [evaluate_of_spells he ht, hvalue]
  rfl

/-- A product that is a negative zero is shown without its sign. -/
theorem evaluate_negative_zero :
    ∃ x, evaluate ['(', '2', '-', '5', ')', ' ', '×', ' ', '0'] = .ok x ∧
      Display.text x = ['0'] := by
  have hdigit : ∀ d ∈ ['2', '5', '0'], ∀ c ∈ [d], Numeral.isPart c = true := by
    simp [Numeral.isPart]
  exact evaluate_integer
    (e := .term (.multiply
      (.power (.factor (.group (.subtract
        (.term (.power (.factor (.number ['2'])))) (.power (.factor (.number ['5'])))))))
      (.factor (.number ['0']))))
    (n := 0) (by decide) (by decide) (by decide)
    (.opening <| .number (hdigit '2' (by simp)) (by simp) <| .written .subtract <|
      .number (hdigit '5' (by simp)) (by simp) <| .closing <| .space <| .glyph .multiply <|
      .space <| .number (hdigit '0' (by simp)) (by simp) .nil)

end Expression

end DeskCalculator
