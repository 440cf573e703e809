import DeskCalculator.Proofs.Number.Exact
import DeskCalculator.Proofs.Number.ReadBack

/-!
# Integers

The integers up to `2 ^ 53` in magnitude are numbers exactly (`representable_intCast`).  A decimal
number that is a number exactly has it as its value (`Decimal.denotes_value`), and so a run of
digits for such an integer reads as it (`Numeral.exists_read?_digits`).
-/

namespace DeskCalculator

namespace Binary64

/-- The magnitude up to which every integer is a number exactly. -/
def exactBound : ℕ := 2 ^ 53

lemma representable_natCast {n : ℕ} (hn : n ≤ exactBound) : Representable (n : ℚ) := by
  rw [Representable, Nat.abs_cast]
  rcases Nat.eq_zero_or_pos n with rfl | hpos
  · refine ⟨0, leastExponent, ⟨by norm_num, le_rfl, by decide, Or.inl rfl⟩, ?_⟩
    rw [Nat.cast_zero, zero_mul]
  rcases hn.eq_or_lt with rfl | hlt
  · refine ⟨2 ^ 52, 1, ⟨by norm_num, by decide, by norm_num, Or.inr le_rfl⟩, ?_⟩
    norm_num [exactBound]
  · -- the leading bit is moved to the top of the significand
    have hlog : n.log2 < 53 := (Nat.log2_lt hpos.ne').2 hlt
    have hsplit : 2 ^ 52 = 2 ^ n.log2 * 2 ^ (52 - n.log2) := by
      rw [← pow_add]
      congr 1
      omega
    refine ⟨n * 2 ^ (52 - n.log2), -((52 - n.log2 : ℕ) : ℤ), ⟨?_, ?_, ?_, Or.inr ?_⟩, ?_⟩
    · calc n * 2 ^ (52 - n.log2) < 2 ^ (n.log2 + 1) * 2 ^ (52 - n.log2) :=
            Nat.mul_lt_mul_of_pos_right Nat.lt_log2_self (by positivity)
        _ = 2 ^ 53 := by
          rw [← pow_add]
          congr 1
          omega
    · change -1074 ≤ -((52 - n.log2 : ℕ) : ℤ)
      omega
    · omega
    · change 2 ^ 52 ≤ _
      rw [hsplit]
      exact Nat.mul_le_mul_right _ (Nat.log2_self_le hpos.ne')
    · rw [zpow_neg, zpow_natCast]
      push_cast
      field_simp

/-- Integers that are not too large are numbers exactly. -/
lemma representable_intCast {n : ℤ} (hn : |n| ≤ exactBound) : Representable (n : ℚ) := by
  have hle : n.natAbs ≤ exactBound := by rwa [Int.abs_eq_natAbs, Int.ofNat_le] at hn
  obtain ⟨m, q, hmq, habs⟩ := representable_natCast hle
  refine ⟨m, q, hmq, ?_⟩
  rw [← habs, Nat.abs_cast, Nat.cast_natAbs, Int.cast_abs]

end Binary64

open Binary64

/-! ## Literals -/

/-- A number lies strictly inside of the interval of the fractions that round to it. -/
lemma roundsTo_self {m : ℕ} (hm : 0 < m) (q : ℤ) : RoundsTo m q (m * 2 ^ q) := by
  have hp : (0 : ℚ) < 2 ^ q := zpow_pos two_pos q
  have hlow : ((Shortest.interval m q).1 : ℚ) ≤ 4 * m - 1 := by
    by_cases h : m = 2 ^ fractionBits ∧ leastExponent < q
    · rw [interval_low_of_eq h]
    · rw [interval_low_of_ne hm h]
      linarith
  have hbelow : ((Shortest.interval m q).1 : ℚ) * 2 ^ (q - 2) < m * 2 ^ q := by
    rw [zpow_sub_two]
    nlinarith
  have habove : (m : ℚ) * 2 ^ q < (Shortest.interval m q).2 * 2 ^ (q - 2) := by
    rw [zpow_sub_two, interval_high]
    nlinarith
  exact ⟨hbelow.le, habove.le, fun h => by rcases h with h | h <;> linarith⟩

/-- A decimal number has the number that it rounds to as its value. -/
lemma Decimal.ofFloat_value {d : Decimal} {m : ℕ} {q : ℤ} (hm : 0 < m) (hmq : IsSignificand m q)
    (h : RoundsTo m q d.toRat) : ofFloat d.value = .finite false m q := by
  rw [value_eq_of_roundsTo hm hmq h, ofFloat, toBits_ofBits (bitsOf_lt hmq).le,
    ← Nat.zero_add (bitsOf m q)]
  exact ofBits_signedBitsOf false hmq

lemma ofFloat_nearest_zero : ofFloat (nearest 0 1) = .finite false 0 leastExponent := by
  decide +kernel

/-- A decimal number that is a number exactly has it as its value. -/
lemma Decimal.denotes_value {d : Decimal} (h : Representable d.toRat) :
    Denotes d.value d.toRat := by
  obtain ⟨m, q, hmq, habs⟩ := h
  have hnonneg : 0 ≤ d.toRat := mul_nonneg (Nat.cast_nonneg _) (zpow_nonneg (by norm_num) _)
  rw [abs_of_nonneg hnonneg] at habs
  rcases Nat.eq_zero_or_pos m with rfl | hm
  · have hzero : d.coefficient = 0 := by
      rw [Nat.cast_zero, zero_mul, toRat, mul_eq_zero, Nat.cast_eq_zero] at habs
      exact habs.resolve_right (zpow_ne_zero _ (by norm_num))
    rw [value, if_pos hzero, toRat, hzero, Nat.cast_zero, zero_mul]
    exact ⟨⟨_, _, _, ofFloat_nearest_zero⟩, by rw [ofFloat_nearest_zero, exactValue_zero]⟩
  · have hparts := ofFloat_value hm hmq (habs ▸ roundsTo_self hm q)
    refine ⟨⟨_, _, _, hparts⟩, ?_⟩
    rw [hparts, Binary64.exactValue, if_neg Bool.false_ne_true, one_mul, habs]

namespace Numeral

open Decimal

/-- **A literal integer that is not too large reads as that integer.** -/
lemma exists_read?_digits {t : Text} (ht : AllDigits t) (hne : t ≠ [])
    (hle : Nat.ofDigitChars 10 t 0 ≤ exactBound) :
    ∃ x, read? t = some x ∧ Denotes x (Nat.ofDigitChars 10 t 0 : ℤ) := by
  have hrat : (⟨Nat.ofDigitChars 10 t 0, 0⟩ : Decimal).toRat = Nat.ofDigitChars 10 t 0 := by
    rw [toRat, zpow_zero, mul_one]
  have hdenotes := denotes_value (d := ⟨Nat.ofDigitChars 10 t 0, 0⟩)
    (by rw [hrat]; exact representable_natCast hle)
  rw [hrat] at hdenotes
  obtain ⟨c, rest, rfl⟩ := List.exists_cons_of_ne_nil hne
  refine ⟨_, ?_, by exact_mod_cast hdenotes⟩
  rw [read?, ofText?_of_isPart (isPart_of_isDigit (ht c List.mem_cons_self)),
    unsigned?_digits ht hne]
  rfl

end Numeral

end DeskCalculator
