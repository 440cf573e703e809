import DeskCalculator.Number.Shortest
import DeskCalculator.Proofs.Number.Bits
import DeskCalculator.Proofs.Number.Scale

/-!
# Rounding to a binary64 number

The fractions that round to `m · 2 ^ q` form an interval around it, whose ends belong to it when
`m` is even (`RoundsTo`).  Every fraction of that interval has `m · 2 ^ q` as its nearest number
(`nearestBits_eq`).  The one case that is not immediate is a fraction right below a power of two:
it is scaled one place further than the power itself, and its significand is carried to the next
binade by rounding.
-/

namespace DeskCalculator

open Binary64

/-- The fraction `v` lies in the interval of those that round to `m · 2 ^ q`. -/
structure RoundsTo (m : ℕ) (q : ℤ) (v : ℚ) : Prop where
  low : (Shortest.interval m q).1 * (2 : ℚ) ^ (q - 2) ≤ v
  high : v ≤ (Shortest.interval m q).2 * (2 : ℚ) ^ (q - 2)
  /-- The ends belong to the even significands. -/
  even : v = (Shortest.interval m q).1 * (2 : ℚ) ^ (q - 2) ∨
    v = (Shortest.interval m q).2 * (2 : ℚ) ^ (q - 2) → m % 2 = 0

section

variable {m : ℕ} {q : ℤ} {v : ℚ}

lemma zpow_sub_two (q : ℤ) : (2 : ℚ) ^ (q - 2) = 2 ^ q / 4 := by
  rw [zpow_sub₀ two_ne_zero]
  norm_num

lemma interval_high : ((Shortest.interval m q).2 : ℚ) = 4 * m + 2 := by
  rw [Shortest.interval]
  push_cast
  rfl

/-- Away from the powers of two the interval reaches half a unit down. -/
lemma interval_low_of_ne (hm : 0 < m) (h : ¬(m = 2 ^ fractionBits ∧ leastExponent < q)) :
    ((Shortest.interval m q).1 : ℚ) = 4 * m - 2 := by
  rw [Shortest.interval, if_neg h, Nat.cast_sub (by omega)]
  push_cast
  rfl

/-- Below a power of two the interval reaches a quarter of a unit down. -/
lemma interval_low_of_eq (h : m = 2 ^ fractionBits ∧ leastExponent < q) :
    ((Shortest.interval m q).1 : ℚ) = 4 * m - 1 := by
  have hm : 0 < m := by
    rw [h.1]
    exact Nat.two_pow_pos _
  rw [Shortest.interval, if_pos h, Nat.cast_sub (by omega)]
  push_cast
  rfl

/-- The interval reaches at most half a unit down. -/
lemma le_interval_low (hm : 0 < m) : 4 * (m : ℚ) - 2 ≤ (Shortest.interval m q).1 := by
  by_cases h : m = 2 ^ fractionBits ∧ leastExponent < q
  · rw [interval_low_of_eq h]
    linarith
  · rw [interval_low_of_ne hm h]

/-- In units of `2 ^ q` the interval reaches at most a half to either side. -/
lemma RoundsTo.isNearest (hm : 0 < m) (h : RoundsTo m q v) : IsNearest m (v / 2 ^ q) := by
  have hp : (0 : ℚ) < 2 ^ q := zpow_pos two_pos q
  have hunit := le_interval_low (q := q) hm
  have hlow := h.low
  have hhigh := h.high
  have heven := h.even
  rw [zpow_sub_two] at hlow hhigh heven
  rw [interval_high] at hhigh heven
  have hlow' : (4 * (m : ℚ) - 2) * (2 ^ q / 4) ≤ v :=
    (mul_le_mul_of_nonneg_right hunit (by positivity)).trans hlow
  refine ⟨?_, ?_, ?_⟩
  · rw [le_div_iff₀ hp]
    linarith
  · rw [div_le_iff₀ hp]
    linarith
  · rintro (hv | hv)
    · -- a half below means that the interval reaches a half down
      rw [div_eq_iff hp.ne'] at hv
      refine heven (Or.inl (le_antisymm ?_ hlow))
      have := mul_le_mul_of_nonneg_right hunit (by positivity : (0 : ℚ) ≤ 2 ^ q / 4)
      linarith
    · rw [div_eq_iff hp.ne'] at hv
      exact heven (Or.inr (by linarith))

lemma RoundsTo.pos (hm : 0 < m) (h : RoundsTo m q v) : 0 < v := by
  have hm' : (1 : ℚ) ≤ m := by exact_mod_cast hm
  have hp : (0 : ℚ) < 2 ^ (q - 2) := zpow_pos two_pos _
  have hunit := le_interval_low (q := q) hm
  exact lt_of_lt_of_le (mul_pos (by linarith) hp) h.low

/-- The interval ends below the power of two which no significand reaches. -/
lemma RoundsTo.lt (hm : m < 2 ^ 53) (h : RoundsTo m q v) : v < 2 ^ (q + 53) := by
  have hp : (0 : ℚ) < 2 ^ q := zpow_pos two_pos q
  have hm' : (m : ℚ) + 1 ≤ 2 ^ 53 := by exact_mod_cast hm
  have hhigh := h.high
  rw [zpow_sub_two, interval_high] at hhigh
  rw [zpow_add₀ two_ne_zero, mul_comm]
  calc v ≤ (m + 1 / 2) * 2 ^ q := by linarith
    _ < (m + 1) * 2 ^ q := mul_lt_mul_of_pos_right (by linarith) hp
    _ ≤ (2 : ℚ) ^ (53 : ℤ) * 2 ^ q := mul_le_mul_of_nonneg_right (by exact_mod_cast hm') hp.le

end

/-! ## The nearest number -/

lemma scaleOf_eq {num den : ℕ} (hnum : 0 < num) (hden : 0 < den) {q : ℤ}
    (hleast : leastExponent ≤ q) (hlt : (num : ℚ) / den < 2 ^ (q + 53))
    (hge : q = leastExponent ∨ 2 ^ (q + 52) ≤ (num : ℚ) / den) : scaleOf num den = q := by
  have hpos : (0 : ℚ) < (num : ℚ) / den := div_pos (Nat.cast_pos.2 hnum) (Nat.cast_pos.2 hden)
  have hupper := (Int.lt_zpow_iff_log_lt (b := 2) (by norm_num) hpos).1 (by exact_mod_cast hlt)
  -- the two bounds leave one logarithm, or only values below the least exponent
  rw [scaleOf_eq_log hnum hden]
  change max leastExponent (Int.log 2 ((num : ℚ) / den) - 52) = q
  rcases hge with rfl | hge
  · exact max_eq_left (by omega)
  · have hlower := (Int.zpow_le_iff_le_log (b := 2) (by norm_num) hpos).1 (by exact_mod_cast hge)
    rw [max_eq_right] <;> omega

/-- The bit pattern of the nearest number, from its scale and its significand. -/
lemma nearestBits_of_scale {num den r : ℕ} (hnum : 0 < num) (hden : 0 < den) {q : ℤ}
    (hscale : scaleOf num den = q) (hr : IsNearest r (num / den / 2 ^ q)) :
    nearestBits num den = min infinityBits (bitsOf r q) := by
  have hround : roundDiv (num * 2 ^ (-q).toNat) (den * 2 ^ q.toNat) = r := by
    refine roundDiv_eq (by positivity) ?_
    rw [ratio_scaled num den two_ne_zero q]
    exact_mod_cast hr
  rw [nearestBits, if_neg hnum.ne']
  simp only [hscale, hround]
  rfl

/-- Only the first significand of a binade has an interval that reaches below the binade. -/
lemma RoundsTo.eq_of_lt {m : ℕ} {q : ℤ} {v : ℚ} (hm : 0 < m) (hmq : IsSignificand m q)
    (h : RoundsTo m q v) (hq : leastExponent < q) (hv : v < 2 ^ (q + 52)) :
    m = 2 ^ fractionBits := by
  have hp : (0 : ℚ) < 2 ^ q := zpow_pos two_pos q
  by_contra hne
  have hfull : 2 ^ 52 ≤ m := hmq.full.resolve_left hq.ne'
  have hne' : m ≠ 2 ^ 52 := hne
  have hm' : (2 : ℚ) ^ 52 + 1 ≤ m := by exact_mod_cast (by omega : 2 ^ 52 + 1 ≤ m)
  have hlow := h.low
  rw [interval_low_of_ne hm (fun hand => hne hand.1), zpow_sub_two] at hlow
  rw [zpow_add₀ two_ne_zero, mul_comm] at hv
  norm_num at hv
  nlinarith

/-- A fraction right below a power of two is scaled one place further, and its significand is
carried to the power of two by rounding. -/
lemma RoundsTo.below {q : ℤ} {v : ℚ} (h : RoundsTo (2 ^ fractionBits) q v)
    (hq : leastExponent < q) (hv : v < 2 ^ (q + 52)) :
    2 ^ (q - 1 + 52) ≤ v ∧ IsNearest (2 ^ 53) (v / 2 ^ (q - 1)) := by
  have hp : (0 : ℚ) < 2 ^ (q - 1) := zpow_pos two_pos _
  have hpred : (2 : ℚ) ^ q = 2 * 2 ^ (q - 1) := by
    rw [zpow_sub_one₀ two_ne_zero]
    ring
  have hlow := h.low
  rw [interval_low_of_eq ⟨rfl, hq⟩, zpow_sub_two, hpred] at hlow
  norm_num [fractionBits] at hlow
  rw [zpow_add₀ two_ne_zero, hpred] at hv
  norm_num at hv
  refine ⟨?_, ?_, ?_, fun _ => by norm_num⟩
  · rw [zpow_add₀ two_ne_zero]
    norm_num
    linarith
  · rw [le_div_iff₀ hp]
    norm_num
    linarith
  · rw [div_le_iff₀ hp]
    norm_num
    linarith

/-- **Rounding.**  Every fraction of the interval of `m · 2 ^ q` rounds to that number. -/
lemma nearestBits_eq {num den m : ℕ} {q : ℤ} (hden : 0 < den) (hm : 0 < m)
    (hmq : IsSignificand m q) (h : RoundsTo m q (num / den)) :
    nearestBits num den = bitsOf m q := by
  have hnum : 0 < num := by
    have hpos := h.pos hm
    rw [lt_div_iff₀ (Nat.cast_pos.2 hden), zero_mul] at hpos
    exact_mod_cast hpos
  have hlt := h.lt hmq.lt
  have hmin : min infinityBits (bitsOf m q) = bitsOf m q := min_eq_right (bitsOf_lt hmq).le
  by_cases hge : q = leastExponent ∨ 2 ^ (q + 52) ≤ (num : ℚ) / den
  · have hscale := scaleOf_eq hnum hden hmq.least_le hlt hge
    rw [nearestBits_of_scale hnum hden hscale (h.isNearest hm), hmin]
  · -- the fraction stands below the binade of `m`, which then is the first of it
    rw [not_or, not_le] at hge
    obtain ⟨hne, hbelow⟩ := hge
    have hleast : leastExponent < q := lt_of_le_of_ne hmq.least_le (Ne.symm hne)
    obtain rfl := h.eq_of_lt hm hmq hleast hbelow
    obtain ⟨hge, hnearest⟩ := h.below hleast hbelow
    have hlt' : (num : ℚ) / den < 2 ^ (q - 1 + 53) := by
      rw [show q - 1 + 53 = q + 52 by ring]
      exact hbelow
    have hscale : scaleOf num den = q - 1 :=
      scaleOf_eq hnum hden (Int.le_sub_one_of_lt hleast) hlt' (Or.inr hge)
    have hbits : bitsOf (2 ^ 53) (q - 1) = bitsOf (2 ^ fractionBits) q := by
      change (q - 1 - -1074).toNat * 2 ^ 52 + 2 ^ 53 = (q - -1074).toNat * 2 ^ 52 + 2 ^ 52
      change -1074 < q at hleast
      omega
    rw [nearestBits_of_scale hnum hden hscale hnearest, hbits, hmin]

end DeskCalculator
