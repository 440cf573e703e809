import DeskCalculator.Proofs.Number.Integer

/-!
# Neighbours

The interval of the fractions that round to a number ends halfway to the next number on either side
(`halfway`).  So a number is at least as near to what rounds to it as any other number
(`IsNearestTo`, `isNearestTo_of_roundsTo`), and rounding does not move a fraction past a number
(`RoundsTo.le_of_le`, `RoundsTo.le_of_ge`).

Every fraction of ordinary size rounds to a number with a full significand (`exists_roundsTo`), and
that number differs from it by less than one part in `2 ^ 52` (`RoundsTo.abs_sub_le`).
-/

namespace DeskCalculator

open Binary64

/-! ### The spacing of the numbers -/

section

variable {m m' : ℕ} {q q' : ℤ} {r u : ℚ}

lemma two_zpow_of_le (h : q ≤ q') : (2 : ℚ) ^ q' = (2 ^ (q' - q).toNat : ℕ) * 2 ^ q := by
  rw [Nat.cast_pow, Nat.cast_ofNat, ← zpow_natCast, ← zpow_add₀ two_ne_zero]
  congr 1
  omega

/-- The larger number does not have the smaller exponent. -/
lemma exponent_le_of_lt (hmq : IsSignificand m q) (hmq' : IsSignificand m' q')
    (h : (m : ℚ) * 2 ^ q < m' * 2 ^ q') : q ≤ q' := by
  by_contra hlt
  rw [not_le] at hlt
  have hfull : 2 ^ 52 ≤ m := hmq.full.resolve_left (lt_of_le_of_lt hmq'.least_le hlt).ne'
  have hdouble : (2 ^ 52 : ℚ) * 2 ^ q ≥ 2 ^ 53 * 2 ^ q' := by
    have hpow : (2 : ℚ) ^ (q' + 1) ≤ 2 ^ q := zpow_le_zpow_right₀ one_le_two hlt
    rw [zpow_add_one₀ two_ne_zero] at hpow
    linarith
  have hm : (2 ^ 52 : ℚ) * 2 ^ q ≤ m * 2 ^ q :=
    mul_le_mul_of_nonneg_right (by exact_mod_cast hfull) (by positivity)
  have hm' : (m' : ℚ) * 2 ^ q' ≤ 2 ^ 53 * 2 ^ q' :=
    mul_le_mul_of_nonneg_right (by exact_mod_cast hmq'.lt.le) (by positivity)
  linarith

/-- Above `m · 2 ^ q` there is no number before `(m + 1) · 2 ^ q`. -/
lemma succ_mul_le_of_lt (hmq : IsSignificand m q) (hmq' : IsSignificand m' q')
    (h : (m : ℚ) * 2 ^ q < m' * 2 ^ q') : ((m : ℚ) + 1) * 2 ^ q ≤ m' * 2 ^ q' := by
  have hp : (0 : ℚ) < 2 ^ q := zpow_pos two_pos q
  have hle := exponent_le_of_lt hmq hmq' h
  rw [two_zpow_of_le hle, ← mul_assoc] at h ⊢
  refine mul_le_mul_of_nonneg_right ?_ hp.le
  exact_mod_cast lt_of_mul_lt_mul_right h hp.le

/-- Between two numbers, the interval of the smaller one ends at the latest halfway, and that of the
larger one starts at the earliest there. -/
lemma halfway (hmq : IsSignificand m q) (hmq' : IsSignificand m' q')
    (h : (m : ℚ) * 2 ^ q < m' * 2 ^ q') :
    (Shortest.interval m q).2 * (2 : ℚ) ^ (q - 2) ≤ (m * 2 ^ q + m' * 2 ^ q') / 2 ∧
      (m * 2 ^ q + m' * 2 ^ q') / 2 ≤ (Shortest.interval m' q').1 * (2 : ℚ) ^ (q' - 2) := by
  have hp : (0 : ℚ) < 2 ^ q := zpow_pos two_pos q
  have hp' : (0 : ℚ) < 2 ^ q' := zpow_pos two_pos q'
  have hle := exponent_le_of_lt hmq hmq' h
  have hm' : 0 < m' := Nat.cast_pos.1 (pos_of_mul_pos_left
    ((mul_nonneg (Nat.cast_nonneg m) hp.le).trans_lt h) hp'.le)
  have hnext := succ_mul_le_of_lt hmq hmq' h
  rw [zpow_sub_two, zpow_sub_two, interval_high]
  refine ⟨by linarith, ?_⟩
  rcases hle.eq_or_lt with rfl | hlt
  · -- in one binade the significands differ by one at least
    have hlow := mul_le_mul_of_nonneg_right (le_interval_low (q := q) hm') hp.le
    linarith
  · -- the smaller number stands below the binade of the larger one
    have hfull : 2 ^ 52 ≤ m' := hmq'.full.resolve_left (lt_of_le_of_lt hmq.least_le hlt).ne'
    have hhalf : (m : ℚ) * 2 ^ q ≤ (2 ^ 53 - 1) * (2 ^ q' / 2) := by
      have hpow : (2 : ℚ) ^ q ≤ 2 ^ (q' - 1) := zpow_le_zpow_right₀ one_le_two (by omega)
      rw [zpow_sub_one₀ two_ne_zero, ← div_eq_mul_inv] at hpow
      have hm : (m : ℚ) ≤ 2 ^ 53 - 1 := by
        rw [le_sub_iff_add_le]
        exact_mod_cast hmq.lt
      exact mul_le_mul hm hpow hp.le (by norm_num)
    by_cases hpower : m' = 2 ^ fractionBits ∧ leastExponent < q'
    · have hm52 : (m' : ℚ) = 2 ^ 52 := by exact_mod_cast hpower.1
      rw [interval_low_of_eq hpower, hm52]
      linarith
    · have hm53 : (2 ^ 52 + 1 : ℚ) * 2 ^ q' ≤ m' * 2 ^ q' := by
        refine mul_le_mul_of_nonneg_right ?_ hp'.le
        have hne : m' ≠ 2 ^ 52 := fun heq => hpower ⟨heq, lt_of_le_of_lt hmq.least_le hlt⟩
        exact_mod_cast Nat.lt_of_le_of_ne hfull hne.symm
      rw [interval_low_of_ne hm' hpower]
      linarith

/-! ### Rounding keeps the order -/

lemma RoundsTo.le_half (h : RoundsTo m q r) (hmq : IsSignificand m q) (hmq' : IsSignificand m' q')
    (hlt : (m : ℚ) * 2 ^ q < m' * 2 ^ q') : r ≤ (m * 2 ^ q + m' * 2 ^ q') / 2 :=
  h.high.trans (halfway hmq hmq' hlt).1

lemma RoundsTo.half_le (h : RoundsTo m q r) (hmq : IsSignificand m q) (hmq' : IsSignificand m' q')
    (hlt : (m' : ℚ) * 2 ^ q' < m * 2 ^ q) : (m' * 2 ^ q' + m * 2 ^ q) / 2 ≤ r :=
  (halfway hmq' hmq hlt).2.trans h.low

lemma RoundsTo.le_of_le (h : RoundsTo m q r) (hmq : IsSignificand m q) (hu : Representable u)
    (hle : u ≤ r) : u ≤ m * 2 ^ q := by
  rcases le_or_gt u 0 with hneg | hpos
  · exact hneg.trans (by positivity)
  obtain ⟨m', q', hmq', heq⟩ := hu
  rw [abs_of_pos hpos] at heq
  by_contra hlt
  rw [not_le, heq] at hlt
  linarith [h.le_half hmq hmq' hlt]

lemma RoundsTo.le_of_ge (h : RoundsTo m q r) (hmq : IsSignificand m q) (hr : 0 ≤ r)
    (hu : Representable u) (hle : r ≤ u) : m * 2 ^ q ≤ u := by
  obtain ⟨m', q', hmq', heq⟩ := hu
  rw [abs_of_nonneg (hr.trans hle)] at heq
  by_contra hlt
  rw [not_le, heq] at hlt
  linarith [h.half_le hmq hmq' hlt]

/-- A number rounds to nothing but itself. -/
lemma RoundsTo.eq_of_representable (h : RoundsTo m q r) (hmq : IsSignificand m q) (hr : 0 ≤ r)
    (hrep : Representable r) : m * 2 ^ q = r :=
  le_antisymm (h.le_of_ge hmq hr hrep le_rfl) (h.le_of_le hmq hrep le_rfl)

/-! ### Rounding is to the nearest number -/

/-- Of all numbers, `m · 2 ^ q` is nearest to what rounds to it, and its significand is even if
another one is equally near. -/
lemma RoundsTo.nearest (h : RoundsTo m q r) (hmq : IsSignificand m q)
    (hmq' : IsSignificand m' q') :
    |m * 2 ^ q - r| ≤ |m' * 2 ^ q' - r| ∧ ((m' : ℚ) * 2 ^ q' ≠ m * 2 ^ q →
      |m' * 2 ^ q' - r| = |m * 2 ^ q - r| → m % 2 = 0) := by
  rcases lt_trichotomy ((m : ℚ) * 2 ^ q) (m' * 2 ^ q') with hlt | heq | hlt
  · have hhalf := h.le_half hmq hmq' hlt
    have hfar : |m' * 2 ^ q' - r| = m' * 2 ^ q' - r := abs_of_pos (by linarith)
    have hnear : |m * 2 ^ q - r| ≤ m' * 2 ^ q' - r := abs_le.2 ⟨by linarith, by linarith⟩
    refine ⟨by rwa [hfar], fun _ htie => h.even (Or.inr (le_antisymm h.high ?_))⟩
    -- equally near, so the fraction stands halfway, where the interval ends
    refine (halfway hmq hmq' hlt).1.trans ?_
    rw [hfar] at htie
    rcases abs_choice ((m : ℚ) * 2 ^ q - r) with habs | habs <;> linarith
  · exact ⟨by rw [heq], fun hne => absurd heq.symm hne⟩
  · have hhalf := h.half_le hmq hmq' hlt
    have hfar : |m' * 2 ^ q' - r| = r - m' * 2 ^ q' := by
      rw [abs_sub_comm]
      exact abs_of_pos (by linarith)
    have hnear : |m * 2 ^ q - r| ≤ r - m' * 2 ^ q' := abs_le.2 ⟨by linarith, by linarith⟩
    refine ⟨by rwa [hfar], fun _ htie => h.even (Or.inl (le_antisymm ?_ h.low))⟩
    refine le_trans ?_ (halfway hmq' hmq hlt).2
    rw [hfar] at htie
    rcases abs_choice ((m : ℚ) * 2 ^ q - r) with habs | habs <;> linarith

end

/-- Of all finite numbers, `y` is nearest to `r`, and its significand is even if another one is
equally near. -/
structure IsNearestTo (y : Float) (r : ℚ) : Prop where
  finite : ∃ w, Denotes y w
  le : ∀ {w z u}, Denotes y w → Denotes z u → |w - r| ≤ |u - r|
  even : ∀ {w z u negative m q}, Denotes y w → Denotes z u → u ≠ w → |u - r| = |w - r| →
    ofFloat y = .finite negative m q → m % 2 = 0

lemma isNearestTo_zero {y : Float} (h : Denotes y 0) : IsNearestTo y 0 := by
  have hzero : ∀ {w}, Denotes y w → w = 0 := fun hw => hw.eq.symm.trans h.eq
  refine ⟨⟨0, h⟩, fun hw _ => ?_, fun hw _ hne htie _ => absurd ?_ hne⟩
  · rw [hzero hw, sub_zero, abs_zero]
    exact abs_nonneg _
  · rw [hzero hw, sub_zero, sub_zero, abs_zero] at htie
    rw [hzero hw, abs_eq_zero.1 htie]

/-- A number with the sign of `r` has it as a common factor. -/
lemma exists_sign {negative : Bool} {r : ℚ} (hsign : r < 0 ↔ negative = true) (m : ℕ) (q : ℤ) :
    ∃ s : ℚ, |s| = 1 ∧ (finite negative m q).exactValue = s * (m * 2 ^ q) ∧ r = s * |r| := by
  cases negative with
  | false =>
    refine ⟨1, abs_one, rfl, ?_⟩
    rw [one_mul, abs_of_nonneg (not_lt.1 (hsign.not.2 Bool.false_ne_true))]
  | true =>
    refine ⟨-1, by rw [abs_neg, abs_one], rfl, ?_⟩
    rw [neg_one_mul, abs_of_neg (hsign.2 rfl), neg_neg]

/-- The number with the sign of `r` to whose magnitude that of `r` rounds is nearest to `r`. -/
lemma isNearestTo_of_roundsTo {y : Float} {negative : Bool} {m : ℕ} {q : ℤ} {r : ℚ} (hm : 0 < m)
    (hy : ofFloat y = .finite negative m q) (h : RoundsTo m q |r|)
    (hsign : r < 0 ↔ negative = true) : IsNearestTo y r := by
  have hmq := isSignificand_of_ofFloat hy
  obtain ⟨s, hs, hsm, hsr⟩ := exists_sign hsign m q
  have hvalue : ∀ {w}, Denotes y w → w = s * (m * 2 ^ q) := fun hw => by rw [← hw.eq, hy, hsm]
  have hdist : |s * (m * 2 ^ q) - r| = |m * 2 ^ q - (|r|)| := by
    conv_lhs => rw [hsr, ← mul_sub, abs_mul, hs, one_mul]
  have hmagnitude : ∀ {z u}, Denotes z u → ∃ (m' : ℕ) (q' : ℤ), IsSignificand m' q' ∧
      |u| = m' * 2 ^ q' ∧ |m' * 2 ^ q' - (|r|)| ≤ |u - r| := by
    intro z u hu
    obtain ⟨m', q', hmq', habs⟩ := hu.representable
    exact ⟨m', q', hmq', habs, habs ▸ abs_abs_sub_abs_le u r⟩
  refine ⟨⟨_, ⟨_, _, _, hy⟩, rfl⟩, fun hw hu => ?_,
    @fun _ _ u _ _ _ hw hu hne htie hparts => ?_⟩
  · obtain ⟨m', q', hmq', -, hle⟩ := hmagnitude hu
    rw [hvalue hw, hdist]
    exact (h.nearest hmq hmq').1.trans hle
  · obtain ⟨-, rfl, -⟩ := Binary64.finite.inj (hy.symm.trans hparts)
    obtain ⟨m', q', hmq', habs, hle⟩ := hmagnitude hu
    obtain ⟨hnearest, heven⟩ := h.nearest hmq hmq'
    rw [hvalue hw] at hne htie
    rw [htie, hdist] at hle
    refine heven (fun heq => ?_) (le_antisymm hle hnearest)
    -- only the opposite number has the same magnitude, and it stands on the other side of zero
    have hpos : (0 : ℚ) < m * 2 ^ q := by positivity
    have hr : 0 < |r| := h.pos hm
    have hopposite : u = -(s * (m * 2 ^ q)) := by
      rw [heq, ← abs_of_pos hpos, ← one_mul |(m : ℚ) * 2 ^ q|, ← hs, ← abs_mul, abs_eq_abs] at habs
      exact habs.resolve_left hne
    have hfar : |u - r| = m * 2 ^ q + |r| := by
      conv_lhs => rw [hopposite, hsr, ← neg_add', ← mul_add, abs_neg, abs_mul, hs, one_mul]
      exact abs_of_pos (add_pos hpos hr)
    rw [hfar, hdist] at htie
    rcases abs_choice ((m : ℚ) * 2 ^ q - |r|) with hchoice | hchoice <;> linarith

/-! ### Every fraction rounds -/

/-- The nearest integer in units of `2 ^ q` is the significand, unless it is carried to `2 ^ 53`. -/
lemma roundsTo_of_isNearest {m : ℕ} {q : ℤ} {r : ℚ} (hle : 2 ^ 52 ≤ r / 2 ^ q)
    (h : IsNearest m (r / 2 ^ q)) : 2 ^ 52 ≤ m ∧ RoundsTo m q r := by
  have hp : (0 : ℚ) < 2 ^ q := zpow_pos two_pos q
  have hm : 2 ^ 52 ≤ m := by
    have hlt : (2 ^ 52 : ℚ) < m + 1 := by linarith [h.ge]
    exact Nat.lt_succ_iff.1 (by exact_mod_cast hlt)
  have hlow := h.le
  have hhigh := h.ge
  have heven := h.even
  rw [le_div_iff₀ hp] at hle hlow
  rw [div_le_iff₀ hp] at hhigh
  rw [div_eq_iff hp.ne', div_eq_iff hp.ne'] at heven
  refine ⟨hm, ?_⟩
  by_cases hpower : m = 2 ^ fractionBits ∧ leastExponent < q
  · have hm52 : (m : ℚ) = 2 ^ 52 := by exact_mod_cast hpower.1
    rw [hm52] at hhigh
    refine ⟨?_, ?_, fun _ => by rw [hpower.1]; rfl⟩
    · rw [interval_low_of_eq hpower, zpow_sub_two, hm52]
      linarith
    · rw [interval_high, zpow_sub_two, hm52]
      linarith
  · have hlow' := interval_low_of_ne (by omega) hpower
    refine ⟨?_, ?_, fun hends => heven ?_⟩
    · rw [hlow', zpow_sub_two]
      linarith
    · rw [interval_high, zpow_sub_two]
      linarith
    · rw [hlow', interval_high, zpow_sub_two] at hends
      exact hends.imp (fun heq => by linarith) fun heq => by linarith

/-- A significand that is carried to `2 ^ 53` is the first one of the next binade. -/
lemma roundsTo_of_carried {q : ℤ} {r : ℚ} (hlt : r / 2 ^ q < 2 ^ 53) (hq : leastExponent ≤ q)
    (h : IsNearest (2 ^ 53) (r / 2 ^ q)) : RoundsTo (2 ^ 52) (q + 1) r := by
  have hp : (0 : ℚ) < 2 ^ q := zpow_pos two_pos q
  have hlow := h.le
  rw [le_div_iff₀ hp] at hlow
  rw [div_lt_iff₀ hp] at hlt
  push_cast at hlow
  refine ⟨?_, ?_, fun _ => rfl⟩
  · rw [interval_low_of_eq (m := 2 ^ 52) ⟨rfl, Int.lt_add_one_iff.2 hq⟩, zpow_sub_two,
      zpow_add_one₀ two_ne_zero]
    push_cast
    linarith
  · rw [interval_high, zpow_sub_two, zpow_add_one₀ two_ne_zero]
    push_cast
    linarith

lemma ten_zpow_le : (10 : ℚ) ^ (307 : ℤ) ≤ 2 ^ (1022 : ℤ) := by
  have hnat : 10 ^ 307 ≤ 2 ^ 1022 := by decide +kernel
  have hcast : ((10 ^ 307 : ℕ) : ℚ) ≤ (2 ^ 1022 : ℕ) := Nat.cast_le.2 hnat
  rwa [Nat.cast_pow, Nat.cast_pow, ← zpow_natCast, ← zpow_natCast] at hcast

/-- **Every fraction of ordinary size rounds to a number**, and to one with a full significand. -/
lemma exists_roundsTo {r : ℚ} (hlow : 10 ^ (-307 : ℤ) ≤ r) (hhigh : r ≤ 10 ^ (307 : ℤ)) :
    ∃ m q, 2 ^ 52 ≤ m ∧ IsSignificand m q ∧ RoundsTo m q r := by
  have hr : 0 < r := lt_of_lt_of_le (by positivity) hlow
  obtain ⟨q, hq⟩ : ∃ q, Int.log 2 r = q + 52 := ⟨_, (sub_add_cancel _ _).symm⟩
  have hleast : -1022 ≤ Int.log 2 r := by
    refine (Int.zpow_le_iff_le_log (by norm_num) hr).1 (le_trans ?_ hlow)
    rw [Nat.cast_ofNat, zpow_neg, zpow_neg]
    exact inv_anti₀ (by positivity) ten_zpow_le
  have hmost : Int.log 2 r < 1023 := by
    refine (Int.lt_zpow_iff_log_lt (by norm_num) hr).1 (lt_of_le_of_lt (hhigh.trans ten_zpow_le) ?_)
    rw [Nat.cast_ofNat]
    exact zpow_lt_zpow_right₀ one_lt_two (by norm_num)
  have hq' : leastExponent ≤ q := by
    change -1074 ≤ q
    omega
  obtain ⟨hle, hlt⟩ := (log_eq_add_iff (by norm_num) hr).1 hq
  obtain ⟨m, hnearest⟩ := exists_isNearest (v := r / 2 ^ q) (by positivity)
  obtain ⟨hm, hrounds⟩ := roundsTo_of_isNearest hle hnearest
  have hm' : m ≤ 2 ^ 53 := by
    have hlt' : (m : ℚ) < 2 ^ 53 + 1 := by linarith [hnearest.le]
    exact Nat.lt_succ_iff.1 (by exact_mod_cast hlt')
  rcases hm'.lt_or_eq with hlt' | rfl
  · exact ⟨m, q, hm, ⟨hlt', hq', by omega, Or.inr hm⟩, hrounds⟩
  · exact ⟨2 ^ 52, q + 1, le_rfl, ⟨by norm_num, by omega, by omega, Or.inr le_rfl⟩,
      roundsTo_of_carried hlt hq' hnearest⟩

/-- A number with a full significand differs from what rounds to it by less than one part in
`2 ^ 52`. -/
lemma RoundsTo.abs_sub_le {m : ℕ} {q : ℤ} {r : ℚ} (hm : 2 ^ 52 ≤ m) (h : RoundsTo m q r) :
    |m * 2 ^ q - r| ≤ r / 2 ^ 52 := by
  have hp : (0 : ℚ) < 2 ^ q := zpow_pos two_pos q
  have hnearest := h.isNearest (lt_of_lt_of_le (by norm_num) hm)
  have hlow := hnearest.le
  have hhigh := hnearest.ge
  rw [le_div_iff₀ hp] at hlow
  rw [div_le_iff₀ hp] at hhigh
  have hfull : (2 ^ 52 : ℚ) * 2 ^ q ≤ m * 2 ^ q :=
    mul_le_mul_of_nonneg_right (by exact_mod_cast hm) hp.le
  rw [abs_le]
  constructor <;> linarith

end DeskCalculator
