import DeskCalculator.Proofs.Number.Rounding

/-!
# The fewest digits round back

What `Shortest.decimal` chooses lies in the interval of the fractions that round to the number
(`decimal_roundsTo`).  Every candidate is tested for this before it is taken, and so it remains to
see that some candidate passes: with seventeen digits the grid is finer than the interval is wide,
and of the two neighbours on it at least one is less than half a unit away.
-/

namespace DeskCalculator

open Binary64

/-- The number that is written, as a rational number. -/
def Decimal.toRat (d : Decimal) : ℚ := d.coefficient * (10 : ℚ) ^ d.exponent

namespace Shortest

variable {m c a : ℕ} {q k p : ℤ}

/-! ## Comparing decimal and binary numbers -/

lemma compareScaled_spec (c : ℕ) (k : ℤ) (a : ℕ) (p : ℤ) :
    (compareScaled c k a p = .lt ↔ (c : ℚ) * 10 ^ k < a * 2 ^ p) ∧
      (compareScaled c k a p = .eq ↔ (c : ℚ) * 10 ^ k = a * 2 ^ p) ∧
      (compareScaled c k a p = .gt ↔ (a : ℚ) * 2 ^ p < c * 10 ^ k) := by
  have hten : (0 : ℚ) < 10 ^ (-k).toNat := by positivity
  have htwo : (0 : ℚ) < 2 ^ (-p).toNat := by positivity
  have hleft : (c : ℚ) * 10 ^ k = c * 10 ^ k.toNat / 10 ^ (-k).toNat := by
    rw [zpow_eq_ratio, mul_div_assoc]
  have hright : (a : ℚ) * 2 ^ p = a * 2 ^ p.toNat / 2 ^ (-p).toNat := by
    rw [zpow_eq_ratio, mul_div_assoc]
  rw [hleft, hright, div_lt_div_iff₀ hten htwo, div_eq_div_iff hten.ne' htwo.ne',
    div_lt_div_iff₀ htwo hten, compareScaled, Nat.compare_eq_lt, Nat.compare_eq_eq,
    Nat.compare_eq_gt]
  refine ⟨?_, ?_, ?_⟩ <;> exact_mod_cast Iff.rfl

/-- What reads back lies in the interval. -/
lemma roundsTo_of_readsBack (hm : 0 < m) (h : readsBack m q c k = true) :
    RoundsTo m q (c * 10 ^ k) := by
  obtain ⟨-, hlowEq, hlowGt⟩ := compareScaled_spec c k (interval m q).1 (q - 2)
  obtain ⟨hhighLt, hhighEq, -⟩ := compareScaled_spec c k (interval m q).2 (q - 2)
  have hwidth : ((interval m q).1 : ℚ) * 2 ^ (q - 2) < (interval m q).2 * 2 ^ (q - 2) := by
    refine mul_lt_mul_of_pos_right ?_ (zpow_pos two_pos _)
    rw [interval]
    exact_mod_cast (by split <;> omega)
  rw [readsBack] at h
  dsimp only at h
  split at h
  · rename_i hl hh
    have hlow := hlowGt.1 hl
    have hhigh := hhighLt.1 hh
    exact ⟨hlow.le, hhigh.le, fun hends => by rcases hends with h | h <;> linarith⟩
  · rename_i hl
    have hlow := hlowEq.1 hl
    exact ⟨hlow.ge, by linarith, fun _ => of_decide_eq_true h⟩
  · rename_i hh _
    have hhigh := hhighEq.1 hh
    exact ⟨by linarith, hhigh.le, fun _ => of_decide_eq_true h⟩
  · cases h

/-- What lies inside of the interval reads back. -/
lemma readsBack_of_lt (hlow : ((interval m q).1 : ℚ) * 2 ^ (q - 2) < c * 10 ^ k)
    (hhigh : (c : ℚ) * 10 ^ k < (interval m q).2 * 2 ^ (q - 2)) : readsBack m q c k = true := by
  have hl := (compareScaled_spec c k (interval m q).1 (q - 2)).2.2.2 hlow
  have hh := (compareScaled_spec c k (interval m q).2 (q - 2)).1.2 hhigh
  rw [readsBack]
  dsimp only
  rw [hl, hh]

/-! ## Candidates -/

lemma toRat_digitsAt (c : ℕ) (k : ℤ) : (digitsAt c k).toRat = c * 10 ^ k := by
  rw [digitsAt]
  split
  · rename_i hc
    rw [Decimal.toRat, hc, zpow_add_one₀ (by norm_num)]
    push_cast
    ring
  · rfl

lemma roundsTo_of_onGrid? (hm : 0 < m) {d : Decimal} (h : onGrid? m q k = some d) :
    RoundsTo m q d.toRat := by
  rw [onGrid?] at h
  split at h
  · rename_i hlow hhigh
    split at h
    · obtain rfl := Option.some.inj h
      exact roundsTo_of_readsBack hm hlow
    · obtain rfl := Option.some.inj h
      rw [toRat_digitsAt]
      exact roundsTo_of_readsBack hm hhigh
  · rename_i hlow hhigh
    obtain rfl := Option.some.inj h
    exact roundsTo_of_readsBack hm hlow
  · rename_i hlow hhigh
    obtain rfl := Option.some.inj h
    rw [toRat_digitsAt]
    exact roundsTo_of_readsBack hm hhigh
  · cases h

/-- If there is no candidate, neither of the two neighbours on the grid reads back. -/
lemma neighbours_of_onGrid?_eq_none (h : onGrid? m q k = none) :
    ∃ c : ℕ, (c : ℚ) * 10 ^ k ≤ m * 2 ^ q ∧ (m : ℚ) * 2 ^ q < (c + 1 : ℕ) * 10 ^ k ∧
      readsBack m q c k = false ∧ readsBack m q (c + 1) k = false := by
  have hten : (0 : ℚ) < 10 ^ k := zpow_pos (by norm_num) k
  have hden : 0 < 2 ^ (-q).toNat * 10 ^ k.toNat := by positivity
  -- the quotient of the division by the grid is the number in units of the grid
  have hunits : ((m * 2 ^ q.toNat * 10 ^ (-k).toNat : ℕ) : ℚ) /
      (2 ^ (-q).toNat * 10 ^ k.toNat : ℕ) = m * 2 ^ q / 10 ^ k := by
    have hscaled := ratio_scaled (m * 2 ^ q.toNat) (2 ^ (-q).toNat) (b := 10) (by norm_num) k
    rw [hscaled, ratio_raised_one m two_ne_zero q, Nat.cast_ofNat, Nat.cast_ofNat]
  have hquot := ratio_eq_quot_add (m * 2 ^ q.toNat * 10 ^ (-k).toNat) hden
  have hfrac : (0 : ℚ) ≤ (m * 2 ^ q.toNat * 10 ^ (-k).toNat % (2 ^ (-q).toNat * 10 ^ k.toNat) : ℕ) /
      (2 ^ (-q).toNat * 10 ^ k.toNat : ℕ) := by positivity
  have hone : (m * 2 ^ q.toNat * 10 ^ (-k).toNat % (2 ^ (-q).toNat * 10 ^ k.toNat) : ℕ) /
      ((2 ^ (-q).toNat * 10 ^ k.toNat : ℕ) : ℚ) < 1 := by
    rw [div_lt_one (by exact_mod_cast hden)]
    exact_mod_cast Nat.mod_lt _ hden
  rw [hunits] at hquot
  refine ⟨m * 2 ^ q.toNat * 10 ^ (-k).toNat / (2 ^ (-q).toNat * 10 ^ k.toNat), ?_, ?_, ?_⟩
  · rw [← le_div_iff₀ hten]
    linarith
  · rw [← div_lt_iff₀ hten, Nat.cast_add_one]
    linarith
  · rw [onGrid?] at h
    split at h
    · split at h <;> cases h
    · cases h
    · cases h
    · rename_i hlow hhigh
      exact ⟨hlow, hhigh⟩

/-! ## Seventeen digits suffice -/

/-- On a grid of which the number has seventeen digits, one of its neighbours reads back. -/
lemma onGrid?_ne_none (hm : 0 < m) (hmq : IsSignificand m q)
    (hk : (10 : ℚ) ^ (k + 16) ≤ m * 2 ^ q) : onGrid? m q k ≠ none := by
  intro hnone
  obtain ⟨c, hbelow, habove, hlow, hhigh⟩ := neighbours_of_onGrid?_eq_none hnone
  have hp : (0 : ℚ) < 2 ^ q := zpow_pos two_pos q
  have hten : (0 : ℚ) < 10 ^ k := zpow_pos (by norm_num) k
  have hm53 : (m : ℚ) ≤ 2 ^ 53 := by exact_mod_cast hmq.lt.le
  rw [zpow_add₀ (by norm_num)] at hk
  rw [Nat.cast_add_one, add_one_mul] at habove
  -- the upper neighbour is at least half a unit away, the lower one at least as far as the
  -- interval reaches
  have hupper : (4 * m + 2) * ((2 : ℚ) ^ q / 4) ≤ c * 10 ^ k + 10 ^ k := by
    by_contra hlt
    refine absurd (readsBack_of_lt (c := c + 1) ?_ ?_) (by rw [hhigh]; exact Bool.false_ne_true)
    · rw [zpow_sub_two, Nat.cast_add_one, add_one_mul]
      have hlow4 : ((interval m q).1 : ℚ) ≤ 4 * m := by exact_mod_cast Nat.sub_le (4 * m) _
      have := mul_le_mul_of_nonneg_right hlow4 (by positivity : (0 : ℚ) ≤ 2 ^ q / 4)
      linarith
    · rw [zpow_sub_two, interval_high, Nat.cast_add_one, add_one_mul]
      exact not_le.1 hlt
  have hlower : (c : ℚ) * 10 ^ k ≤ (interval m q).1 * (2 ^ q / 4) := by
    by_contra hlt
    refine absurd (readsBack_of_lt (c := c) ?_ ?_) (by rw [hlow]; exact Bool.false_ne_true)
    · rw [zpow_sub_two]
      exact not_le.1 hlt
    · rw [zpow_sub_two, interval_high]
      linarith
  norm_num at hk
  by_cases hpower : m = 2 ^ fractionBits ∧ leastExponent < q
  · have hm52 : (m : ℚ) * 2 ^ q = 2 ^ 52 * 2 ^ q := by
      rw [hpower.1]
      norm_num [fractionBits]
    linarith
  · have hbound : (m : ℚ) * 2 ^ q ≤ 2 ^ 53 * 2 ^ q := mul_le_mul_of_nonneg_right hm53 hp.le
    rw [interval_low_of_ne hm hpower] at hlower
    linarith

/-- **The shortest digits.**  The decimal number with the fewest digits lies in the interval of
the fractions that round to the number it is chosen for. -/
lemma decimal_roundsTo (hm : 0 < m) (hmq : IsSignificand m q) :
    RoundsTo m q (decimal m q).toRat := by
  have hp : (0 : ℚ) < 2 ^ q := zpow_pos two_pos q
  have hvalue : ((m * 2 ^ q.toNat : ℕ) : ℚ) / (2 ^ (-q).toNat : ℕ) = m * 2 ^ q := by
    rw [ratio_raised_one m two_ne_zero q, Nat.cast_ofNat]
  have hmagnitude :
      (10 : ℚ) ^ Decimal.magnitude (m * 2 ^ q.toNat) (2 ^ (-q).toNat) ≤ m * 2 ^ q := by
    have hpos : (0 : ℚ) < m * 2 ^ q := by positivity
    have hlog := Int.zpow_log_le_self (b := 10) (by norm_num) hpos
    rw [Decimal.magnitude_eq_log (by positivity) (by positivity), hvalue]
    rwa [Nat.cast_ofNat] at hlog
  rw [decimal]
  rcases hfound : (List.range 17).findSome? fun places : ℕ =>
      onGrid? m q (Decimal.magnitude (m * 2 ^ q.toNat) (2 ^ (-q).toNat) - places) with _ | d
  · have hlast := List.findSome?_eq_none_iff.1 hfound 16 (by decide)
    refine absurd hlast (onGrid?_ne_none hm hmq ?_)
    rwa [Nat.cast_ofNat, sub_add_cancel]
  · obtain ⟨places, -, hplaces⟩ := List.exists_of_findSome?_eq_some hfound
    exact roundsTo_of_onGrid? hm hplaces

end Shortest

end DeskCalculator
