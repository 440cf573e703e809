import DeskCalculator.Number.Decimal
import Mathlib.Algebra.Order.Field.Power
import Mathlib.Data.Int.Log
import Mathlib.Data.Rat.Floor
import Mathlib.Tactic.FieldSimp
import Mathlib.Tactic.Lemma
import Mathlib.Tactic.Linarith
import Mathlib.Tactic.NormNum
import Mathlib.Tactic.Positivity
import Mathlib.Tactic.Ring

/-!
# Fractions and their scales

The arithmetic of numerators and denominators, read as rational numbers.  A fraction with a power
above and one below the line is the fraction scaled by a power with an integer exponent
(`ratio_scaled`); `roundDiv` is the nearest integer to the fraction, a half going to the even
neighbour (`roundDiv_eq`); and the binary and the decimal scale of a fraction are its integer
logarithms (`scaleOf_eq_log`, `Decimal.magnitude_eq_log`).
-/

namespace DeskCalculator

/-! ## Powers above and below the line -/

lemma zpow_eq_ratio (b : ℚ) (e : ℤ) : b ^ e = b ^ e.toNat / b ^ (-e).toNat := by
  rcases Int.le_total 0 e with he | he
  · rw [Int.toNat_eq_zero.2 (by omega : -e ≤ 0), pow_zero, div_one, ← zpow_natCast,
      Int.toNat_of_nonneg he]
  · rw [Int.toNat_eq_zero.2 he, pow_zero, one_div, ← zpow_natCast,
      Int.toNat_of_nonneg (by omega), zpow_neg, inv_inv]

lemma ratio_scaled (num den : ℕ) {b : ℕ} (hb : b ≠ 0) (e : ℤ) :
    ((num * b ^ (-e).toNat : ℕ) : ℚ) / (den * b ^ e.toNat : ℕ) = num / den / (b : ℚ) ^ e := by
  have hb' : (b : ℚ) ≠ 0 := Nat.cast_ne_zero.2 hb
  rw [zpow_eq_ratio]
  push_cast
  field_simp

lemma ratio_raised (num den : ℕ) {b : ℕ} (hb : b ≠ 0) (e : ℤ) :
    ((num * b ^ e.toNat : ℕ) : ℚ) / (den * b ^ (-e).toNat : ℕ) = num / den * (b : ℚ) ^ e := by
  have hscaled := ratio_scaled num den hb (-e)
  rw [neg_neg, zpow_neg, div_inv_eq_mul] at hscaled
  exact hscaled

lemma ratio_raised_one (num : ℕ) {b : ℕ} (hb : b ≠ 0) (e : ℤ) :
    ((num * b ^ e.toNat : ℕ) : ℚ) / (b ^ (-e).toNat : ℕ) = num * (b : ℚ) ^ e := by
  have hraised := ratio_raised num 1 hb e
  rwa [one_mul, Nat.cast_one, div_one] at hraised

/-! ## The nearest integer -/

/-- The integer `r` is the one nearest to `v`, of two equally near ones the even one. -/
structure IsNearest (r : ℕ) (v : ℚ) : Prop where
  le : (r : ℚ) - 1 / 2 ≤ v
  ge : v ≤ r + 1 / 2
  /-- A half goes to the even neighbour. -/
  even : v = r - 1 / 2 ∨ v = r + 1 / 2 → r % 2 = 0

/-- The quotient and the remainder of a fraction, as a rational number. -/
lemma ratio_eq_quot_add (num : ℕ) {den : ℕ} (hden : 0 < den) :
    (num : ℚ) / den = (num / den : ℕ) + (num % den : ℕ) / den := by
  have hden' : (den : ℚ) ≠ 0 := Nat.cast_ne_zero.2 hden.ne'
  rw [div_eq_iff hden', add_mul, div_mul_cancel₀ _ hden']
  exact_mod_cast (Nat.div_add_mod' num den).symm

lemma isNearest_roundDiv (num : ℕ) {den : ℕ} (hden : 0 < den) :
    IsNearest (roundDiv num den) (num / den) := by
  have hpos : (0 : ℚ) < den := Nat.cast_pos.2 hden
  have hlt : (num % den : ℕ) < (den : ℚ) := Nat.cast_lt.2 (Nat.mod_lt _ hden)
  have hnonneg : (0 : ℚ) ≤ (num % den : ℕ) := Nat.cast_nonneg _
  have hfrac : (0 : ℚ) ≤ (num % den : ℕ) / den := div_nonneg hnonneg hpos.le
  have hone : (num % den : ℕ) / (den : ℚ) < 1 := (div_lt_one hpos).2 hlt
  rw [ratio_eq_quot_add num hden, roundDiv]
  generalize num / den = quot
  have hnext : ((quot + 1 : ℕ) : ℚ) = quot + 1 := Nat.cast_add_one quot
  -- where twice the remainder stands to the denominator is where the rest stands to a half
  rcases hc : compare (2 * (num % den)) den with _ | _ | _
  · have hcmp : num % den * 2 < 1 * den := by
      have := Nat.compare_eq_lt.1 hc
      omega
    have hhalf : (num % den : ℕ) / (den : ℚ) < 1 / 2 := by
      rw [div_lt_div_iff₀ hpos two_pos]
      exact_mod_cast hcmp
    exact ⟨by linarith, by linarith, fun h => by rcases h with h | h <;> linarith⟩
  · have hcmp : num % den * 2 = 1 * den := by
      have := Nat.compare_eq_eq.1 hc
      omega
    have hhalf : (num % den : ℕ) / (den : ℚ) = 1 / 2 := by
      rw [div_eq_div_iff hpos.ne' two_ne_zero]
      exact_mod_cast hcmp
    rw [hhalf]
    dsimp only
    rcases Nat.mod_two_eq_zero_or_one quot with hq | hq
    · rw [hq, Nat.add_zero]
      exact ⟨by linarith, by linarith, fun _ => hq⟩
    · rw [hq]
      exact ⟨by linarith, by linarith, fun _ => by omega⟩
  · have hcmp : 1 * den < num % den * 2 := by
      have := Nat.compare_eq_gt.1 hc
      omega
    have hhalf : 1 / 2 < (num % den : ℕ) / (den : ℚ) := by
      rw [div_lt_div_iff₀ two_pos hpos]
      exact_mod_cast hcmp
    exact ⟨by linarith, by linarith, fun h => by rcases h with h | h <;> linarith⟩

lemma exists_isNearest {v : ℚ} (hv : 0 ≤ v) : ∃ n, IsNearest n v := by
  have hnearest := isNearest_roundDiv v.num.natAbs v.den_pos
  have hratio : (v.num.natAbs : ℚ) / v.den = v := by
    rw [Nat.cast_natAbs, abs_of_nonneg (Rat.num_nonneg.2 hv), Rat.num_div_den]
  exact ⟨_, hratio ▸ hnearest⟩

lemma IsNearest.unique {r s : ℕ} {v : ℚ} (hr : IsNearest r v) (hs : IsNearest s v) : r = s := by
  have hrs : (r : ℚ) ≤ s + 1 := by linarith [hr.le, hs.ge]
  have hsr : (s : ℚ) ≤ r + 1 := by linarith [hs.le, hr.ge]
  have hrs' : r ≤ s + 1 := by exact_mod_cast hrs
  have hsr' : s ≤ r + 1 := by exact_mod_cast hsr
  rcases Nat.lt_trichotomy r s with h | h | h
  · -- two neighbours are equally near, but one of them is odd
    obtain rfl : s = r + 1 := by omega
    have hle := hs.le
    push_cast at hle
    have heven := hr.even (Or.inr (by linarith [hr.ge]))
    have heven' := hs.even (Or.inl (by push_cast; linarith [hr.ge]))
    omega
  · exact h
  · obtain rfl : r = s + 1 := by omega
    have hle := hr.le
    push_cast at hle
    have heven := hs.even (Or.inr (by linarith [hs.ge]))
    have heven' := hr.even (Or.inl (by push_cast; linarith [hs.ge]))
    omega

lemma IsNearest.of_abs_lt {r : ℕ} {v : ℚ} (h : |v - r| < 1 / 2) : IsNearest r v := by
  obtain ⟨hlow, hhigh⟩ := abs_lt.1 h
  exact ⟨by linarith, by linarith, fun heq => by rcases heq with heq | heq <;> linarith⟩

lemma roundDiv_eq {num den r : ℕ} (hden : 0 < den) (h : IsNearest r (num / den)) :
    roundDiv num den = r :=
  (isNearest_roundDiv num hden).unique h

/-! ## Scales as logarithms -/

lemma log_eq {b : ℕ} (hb : 1 < b) {v : ℚ} {e : ℤ} (hle : (b : ℚ) ^ e ≤ v)
    (hlt : v < (b : ℚ) ^ (e + 1)) : Int.log b v = e := by
  have hv : 0 < v := lt_of_lt_of_le (zpow_pos (Nat.cast_pos.2 (by omega)) e) hle
  have h₁ := (Int.zpow_le_iff_le_log hb hv).1 hle
  have h₂ := (Int.lt_zpow_iff_log_lt hb hv).1 hlt
  omega

/-- A logarithm, as a scale that leaves `n` places before the point. -/
lemma log_eq_add_iff {b : ℕ} (hb : 1 < b) {v : ℚ} (hv : 0 < v) {e : ℤ} {n : ℕ} :
    Int.log b v = e + n ↔ (b : ℚ) ^ n ≤ v / (b : ℚ) ^ e ∧ v / (b : ℚ) ^ e < (b : ℚ) ^ (n + 1) := by
  have hb' : (0 : ℚ) < b := Nat.cast_pos.2 (by omega)
  have hp : (0 : ℚ) < (b : ℚ) ^ e := zpow_pos hb' e
  have hpow : ∀ i : ℕ, (b : ℚ) ^ i * (b : ℚ) ^ e = (b : ℚ) ^ (e + i) := fun i => by
    rw [zpow_add₀ hb'.ne', zpow_natCast, mul_comm]
  rw [le_div_iff₀ hp, div_lt_iff₀ hp, hpow, hpow, Nat.cast_succ, ← add_assoc]
  constructor
  · intro hlog
    rw [← hlog]
    exact ⟨Int.zpow_log_le_self hb hv, Int.lt_zpow_succ_log_self hb v⟩
  · exact fun h => log_eq hb h.1 h.2

lemma zpow_log2_le {n : ℕ} (hn : 0 < n) : (2 : ℚ) ^ (n.log2 : ℤ) ≤ n := by
  rw [zpow_natCast]
  exact_mod_cast Nat.log2_self_le hn.ne'

lemma lt_zpow_log2_add_one (n : ℕ) : (n : ℚ) < 2 ^ ((n.log2 : ℤ) + 1) := by
  rw [← Nat.cast_succ, zpow_natCast]
  exact_mod_cast Nat.lt_log2_self

/-- The difference of the two logarithms is that of the fraction, or one too large. -/
lemma ratio_bounds {num den : ℕ} (hnum : 0 < num) (hden : 0 < den) :
    (2 : ℚ) ^ ((num.log2 : ℤ) - den.log2 - 1) ≤ num / den ∧
      (num : ℚ) / den < 2 ^ ((num.log2 : ℤ) - den.log2 + 1) := by
  have hd : (0 : ℚ) < den := Nat.cast_pos.2 hden
  refine ⟨?_, ?_⟩
  · rw [le_div_iff₀ hd]
    calc (2 : ℚ) ^ ((num.log2 : ℤ) - den.log2 - 1) * den
        ≤ 2 ^ ((num.log2 : ℤ) - den.log2 - 1) * 2 ^ ((den.log2 : ℤ) + 1) :=
          mul_le_mul_of_nonneg_left (lt_zpow_log2_add_one den).le (by positivity)
      _ = 2 ^ (num.log2 : ℤ) := by
          rw [← zpow_add₀ two_ne_zero]
          congr 1
          ring
      _ ≤ num := zpow_log2_le hnum
  · rw [div_lt_iff₀ hd]
    calc (num : ℚ) < 2 ^ ((num.log2 : ℤ) + 1) := lt_zpow_log2_add_one num
      _ = 2 ^ ((num.log2 : ℤ) - den.log2 + 1) * 2 ^ (den.log2 : ℤ) := by
          rw [← zpow_add₀ two_ne_zero]
          congr 1
          ring
      _ ≤ 2 ^ ((num.log2 : ℤ) - den.log2 + 1) * den :=
          mul_le_mul_of_nonneg_left (zpow_log2_le hden) (by positivity)

/-- The comparison by which the scale is chosen. -/
lemma fits_iff (num : ℕ) {den : ℕ} (hden : 0 < den) (q : ℤ) :
    den * 2 ^ q.toNat * 2 ^ Binary64.fractionBits ≤ num * 2 ^ (-q).toNat ↔
      (2 : ℚ) ^ (q + Binary64.fractionBits) ≤ num / den := by
  have hden' : (0 : ℚ) < (den * 2 ^ q.toNat : ℕ) := by positivity
  have hscaled := ratio_scaled num den (b := 2) two_ne_zero q
  rw [Nat.cast_ofNat] at hscaled
  rw [add_comm q, zpow_add₀ two_ne_zero, zpow_natCast, ← le_div_iff₀ (by positivity), ← hscaled,
    le_div_iff₀ hden', mul_comm (den * _)]
  exact_mod_cast Iff.rfl

/-- The binary scale of a fraction, apart from the bound below. -/
lemma scaleOf_eq_log {num den : ℕ} (hnum : 0 < num) (hden : 0 < den) :
    scaleOf num den = max Binary64.leastExponent
      (Int.log 2 ((num : ℚ) / den) - Binary64.fractionBits) := by
  obtain ⟨hlower, hupper⟩ := ratio_bounds hnum hden
  have hfits := fits_iff num hden ((num.log2 : ℤ) - den.log2 - Binary64.fractionBits)
  rw [sub_add_cancel] at hfits
  rw [scaleOf]
  congr 1
  -- the comparison tells which of the two possible logarithms it is
  by_cases h : (2 : ℚ) ^ ((num.log2 : ℤ) - den.log2) ≤ num / den
  · rw [if_pos (hfits.2 h),
      log_eq (b := 2) (by norm_num) (by simpa using h) (by simpa using hupper)]
  · rw [if_neg (mt hfits.1 h),
      log_eq (b := 2) (by norm_num) (by simpa using hlower) (by simpa using h)]
    omega

namespace Decimal

/-- The number of digits of a positive number is bounded by a power of ten. -/
lemma lt_pow_length_toDigits (n : ℕ) : n < 10 ^ (Nat.toDigits 10 n).length :=
  (Nat.length_toDigits_le_iff (by norm_num) Nat.length_toDigits_pos).1 le_rfl

lemma pow_length_toDigits_le {n : ℕ} (hn : 0 < n) : 10 ^ ((Nat.toDigits 10 n).length - 1) ≤ n := by
  by_contra hlt
  rcases Nat.eq_zero_or_pos ((Nat.toDigits 10 n).length - 1) with hzero | hpos
  · rw [hzero] at hlt
    omega
  · have hle := (Nat.length_toDigits_le_iff (b := 10) (by norm_num) hpos).2 (not_le.1 hlt)
    omega

/-- The decimal scale of a positive fraction. -/
lemma magnitude_eq_log {num den : ℕ} (hnum : 0 < num) (hden : 0 < den) :
    magnitude num den = Int.log 10 ((num : ℚ) / den) := by
  have hn : (0 : ℚ) < num := Nat.cast_pos.2 hnum
  have hd : (0 : ℚ) < den := Nat.cast_pos.2 hden
  rw [magnitude, eq_comm]
  split
  · rename_i hle
    have hquot : 0 < num / den := Nat.div_pos hle hden
    have hlow := (Nat.le_div_iff_mul_le hden).1 (pow_length_toDigits_le hquot)
    have hhigh := (Nat.div_lt_iff_lt_mul hden).1 (lt_pow_length_toDigits (num / den))
    have hlen : 0 < (Nat.toDigits 10 (num / den)).length := Nat.length_toDigits_pos
    refine log_eq (by norm_num) ?_ ?_
    · rw [zpow_natCast, le_div_iff₀ hd]
      exact_mod_cast hlow
    · rw [← Nat.cast_add_one, Nat.sub_add_cancel hlen, zpow_natCast, div_lt_iff₀ hd]
      exact_mod_cast hhigh
  · -- below one, the digits of `(den - 1) / num` count the places up to the first digit
    rename_i hlt
    have hquot : 0 < (den - 1) / num := Nat.div_pos (by omega) hnum
    have hlow := (Nat.le_div_iff_mul_le hnum).1 (pow_length_toDigits_le hquot)
    have hhigh := (Nat.div_lt_iff_lt_mul hnum).1 (lt_pow_length_toDigits ((den - 1) / num))
    have hlen : 0 < (Nat.toDigits 10 ((den - 1) / num)).length := Nat.length_toDigits_pos
    have hnext : -((Nat.toDigits 10 ((den - 1) / num)).length : ℤ) + 1 =
        -(((Nat.toDigits 10 ((den - 1) / num)).length - 1 : ℕ) : ℤ) := by omega
    refine log_eq (by norm_num) ?_ ?_
    · rw [zpow_neg, zpow_natCast, inv_le_comm₀ (by positivity) (by positivity), inv_div,
        div_le_iff₀ hn]
      exact_mod_cast (by omega : den ≤ 10 ^ (Nat.toDigits 10 ((den - 1) / num)).length * num)
    · rw [hnext, zpow_neg, zpow_natCast, lt_inv_comm₀ (by positivity) (by positivity), inv_div,
        lt_div_iff₀ hn]
      exact_mod_cast (by omega : 10 ^ ((Nat.toDigits 10 ((den - 1) / num)).length - 1) * num < den)

end Decimal

end DeskCalculator
