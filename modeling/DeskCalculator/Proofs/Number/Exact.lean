import DeskCalculator.Proofs.Number.Scale
import DeskCalculator.Proofs.Number.SquareRoot

/-!
# Exact results

A finite number is a rational number exactly (`Binary64.Denotes`).  If the sum, the difference or
the product of two of them is the value of some finite number as well, then it is what the
operation gives: rounding only moves what does not fit (`Denotes.add`, `Denotes.subtract`,
`Denotes.multiply`).

The operations of the core library take numbers apart into significand and exponent, compute with
these, and round.  A significand that fits has no bits that could be lost, so that the two shifts of
rounding bring the result into its only normal form (`round_exact`).
-/

namespace DeskCalculator

namespace Binary64

open Float.Model (Format UnpackedFloat totalExponent)
open Float.Model.UnpackedFloat

/-! ## Values -/

/-- The rational number that the parts of a finite number stand for. -/
def exactValue : Binary64 → ℚ
  | .finite negative m q => (if negative then -1 else 1) * (m * 2 ^ q)
  | _ => 0

lemma exactValue_zero (negative : Bool) (q : ℤ) : (finite negative 0 q).exactValue = 0 := by
  rw [exactValue, Nat.cast_zero, zero_mul, mul_zero]

lemma abs_sign_mul (negative : Bool) (v : ℚ) : |(if negative then -1 else 1) * v| = |v| := by
  cases negative
  · rw [if_neg Bool.false_ne_true, one_mul]
  · rw [if_pos rfl, neg_one_mul, abs_neg]

lemma sign_mul_neg_iff (negative : Bool) {v : ℚ} (hv : 0 < v) :
    (if negative then -1 else 1) * v < 0 ↔ negative = true := by
  cases negative
  · rw [if_neg Bool.false_ne_true, one_mul]
    exact iff_of_false hv.le.not_gt Bool.false_ne_true
  · rw [if_pos rfl, neg_one_mul]
    exact iff_of_true (neg_lt_zero.2 hv) rfl

lemma abs_exactValue (negative : Bool) (m : ℕ) (q : ℤ) :
    |(finite negative m q).exactValue| = m * 2 ^ q := by
  rw [exactValue, abs_sign_mul, abs_of_nonneg (by positivity)]

/-- A number that is not zero has a significand. -/
lemma pos_of_exactValue_ne_zero {negative : Bool} {m : ℕ} {q : ℤ} {v : ℚ}
    (hv : (finite negative m q).exactValue = v) (h : v ≠ 0) : 0 < m := by
  rw [Nat.pos_iff_ne_zero]
  rintro rfl
  exact h (hv.symm.trans (exactValue_zero negative q))

lemma exactValue_neg_iff (negative : Bool) {m : ℕ} (hm : 0 < m) (q : ℤ) :
    (finite negative m q).exactValue < 0 ↔ negative = true :=
  sign_mul_neg_iff negative (by positivity)

/-- The number is finite, and `v` exactly. -/
structure Denotes (x : Float) (v : ℚ) : Prop where
  finite : ∃ negative m q, ofFloat x = .finite negative m q
  eq : (ofFloat x).exactValue = v

/-- There is a finite number that is `v` or `-v` exactly. -/
def Representable (v : ℚ) : Prop :=
  ∃ (m : ℕ) (q : ℤ), IsSignificand m q ∧ |v| = m * 2 ^ q

lemma Denotes.representable {x : Float} {v : ℚ} (h : Denotes x v) : Representable v := by
  obtain ⟨⟨negative, m, q, hparts⟩, rfl⟩ := h
  exact ⟨m, q, isSignificand_of_ofFloat hparts, by rw [hparts, abs_exactValue]⟩

/-- What the core library takes a number apart into is in normal form and stands for `v`. -/
inductive Holds : UnpackedFloat → ℚ → Prop where
  | zero (s : Sign) : Holds (.zero s) 0
  | finite (s : Sign) {m : ℕ} {q : ℤ} (hm : 0 < m) (h : IsSignificand m q) :
    Holds (.finite s m q hm) ((s.apply m : ℤ) * 2 ^ q)

/-! ## Taking apart and putting together -/

/-- The sign of the core library. -/
def signOf (negative : Bool) : Sign := if negative then .negative else .positive

lemma ofBitVec_unpackSign (b : BitVec Format.binary64.numBits) :
    Sign.ofBitVec (unpackSign b) = signOf (decide (b.toNat / 2 ^ 63 % 2 = 1)) := by
  have hzero : unpackSign b = 0#1 ↔ b.toNat / 2 ^ 63 % 2 = 0 := by
    rw [← BitVec.toNat_inj, toNat_unpackSign]
    exact Iff.rfl
  rw [Sign.ofBitVec, signOf]
  rcases Nat.mod_two_eq_zero_or_one (b.toNat / 2 ^ 63) with h | h
  · rw [if_pos (hzero.2 h), h]
    rfl
  · rw [if_neg (by rw [hzero, h]; decide), h]
    rfl

/-- A pattern is taken apart into the parts that it has. -/
lemma unpack_of_ofBits {b : BitVec Format.binary64.numBits} {negative : Bool} {m : ℕ} {q : ℤ}
    (h : ofBits b.toNat = .finite negative m q) :
    m = 0 ∧ unpack Format.binary64 b = .zero (signOf negative) ∨
      ∃ hm, unpack Format.binary64 b = .finite (signOf negative) m q hm := by
  have htop := unpackExponent_eq_top_iff b
  have hfraction := unpackMantissa_eq_zero_iff b
  have hleast : unpackExponent b = 0#_ ↔ b.toNat / 2 ^ fractionBits % 2 ^ 11 = 0 := by
    rw [← BitVec.toNat_inj, toNat_unpackExponent]
    exact Iff.rfl
  rw [ofBits] at h
  rw [unpack, ofBitVec_unpackSign]
  by_cases hfield : b.toNat / 2 ^ fractionBits % 2 ^ 11 = topField
  · rw [if_pos hfield] at h
    split at h <;> cases h
  rw [if_neg hfield] at h
  rw [if_neg (mt htop.1 hfield)]
  by_cases hzero : b.toNat / 2 ^ fractionBits % 2 ^ 11 = 0
  · rw [if_pos hzero] at h
    obtain ⟨rfl, rfl, rfl⟩ := Binary64.finite.inj h
    rw [if_pos (hleast.2 hzero)]
    by_cases hm : b.toNat % 2 ^ fractionBits = 0
    · exact Or.inl ⟨hm, dif_pos (hfraction.2 hm)⟩
    · refine Or.inr ⟨Nat.pos_of_ne_zero hm, (dif_neg (mt hfraction.1 hm)).trans ?_⟩
      congr 1
      rw [hleast.2 hzero]
      rfl
  · rw [if_neg hzero] at h
    obtain ⟨rfl, rfl, rfl⟩ := Binary64.finite.inj h
    rw [if_neg (mt hleast.1 hzero)]
    refine Or.inr ⟨by omega, ?_⟩
    congr 1
    · rw [toNat_append_one, toNat_unpackMantissa]
      rfl
    · rw [toNat_unpackExponent]
      change ((b.toNat / 2 ^ 52 % 2 ^ 11 : ℕ) : ℤ) - (1023 + 52) =
        -1074 + ((b.toNat / 2 ^ 52 % 2 ^ 11 - 1 : ℕ) : ℤ)
      change ¬ b.toNat / 2 ^ 52 % 2 ^ 11 = 0 at hzero
      omega

/-- A finite positive number has no sign. -/
lemma ofFloat_of_pos {x : Float} (hx : x.isFinite = true) (hpos : 0 < x) :
    ∃ m q, ofFloat x = .finite false m q := by
  obtain ⟨negative, m, q, h⟩ := exists_ofFloat_of_isFinite hx
  cases negative with
  | false => exact ⟨m, q, h⟩
  | true =>
    have hlt : (UnpackedFloat.zero .positive).lt
        (unpack Format.binary64 x.toModel.toBits.toBitVec) = true := of_decide_eq_true hpos
    rcases unpack_of_ofBits (b := x.toModel.toBits.toBitVec) h with ⟨-, hu⟩ | ⟨hm, hu⟩
    · rw [hu] at hlt
      cases hlt
    · rw [hu] at hlt
      cases hlt

lemma lt_zero_of_unpack {x : Float}
    (h : (unpack Format.binary64 x.toModel.toBits.toBitVec).lt (.zero .positive) = true) : x < 0 :=
  decide_eq_true h

/-- A finite number with a sign is negative, unless it is a zero. -/
lemma lt_zero_of_finite {x : Float} {m : ℕ} {q : ℤ} (h : ofFloat x = .finite true m q)
    (hm : 0 < m) : x < 0 := by
  refine lt_zero_of_unpack ?_
  rcases unpack_of_ofBits (b := x.toModel.toBits.toBitVec) h with ⟨rfl, -⟩ | ⟨hm', hu⟩
  · exact absurd hm (lt_irrefl 0)
  · rw [hu]
    rfl

/-- The infinity with a sign is negative. -/
lemma lt_zero_of_infinite {x : Float} (h : ofFloat x = .infinite true) : x < 0 := by
  refine lt_zero_of_unpack ?_
  change ofBits x.toModel.toBits.toBitVec.toNat = _ at h
  generalize x.toModel.toBits.toBitVec = b at h ⊢
  rw [ofBits] at h
  rw [unpack, ofBitVec_unpackSign]
  split at h
  · rename_i htop
    rw [if_pos ((unpackExponent_eq_top_iff b).2 htop)]
    split at h
    · rename_i hzero
      rw [if_pos ((unpackMantissa_eq_zero_iff b).2 hzero), Binary64.infinite.inj h]
      rfl
    · cases h
  · split at h <;> cases h

lemma toNat_pack_finite (s : Sign) {m : ℕ} {q : ℤ} (hm : 0 < m) (h : IsSignificand m q) :
    (pack Format.binary64 (.finite s m q hm)).toNat = signedBitsOf (s == .negative) m q := by
  obtain ⟨hlt, hleast, hmost, hfull⟩ := h
  change -1074 ≤ q at hleast
  change q = -1074 ∨ 2 ^ 52 ≤ m at hfull
  have hfits : ¬ 2 ^ 11 ≤ (q + Format.binary64.exponentBias + (52 : ℕ)).toNat + 1 := by
    rw [show Format.binary64.exponentBias = 1023 from rfl]
    omega
  have hsign : signedBitsOf (s == .negative) m q =
      s.toBitVec.toNat * 2 ^ 63 + ((q - -1074).toNat * 2 ^ 52 + m) := by
    cases s <;> rfl
  rw [pack]
  simp only [if_neg hfits]
  rw [hsign, show Format.binary64.exponentBias = 1023 from rfl]
  by_cases hnormal : m.log2 + 1 = Format.binary64.mantissaBits
  · rw [if_pos hnormal, toNat_packComponents]
    have hge : 2 ^ 52 ≤ m := by
      rw [← show m.log2 = 52 from Nat.succ_injective hnormal]
      exact Nat.log2_self_le hm.ne'
    simp only [BitVec.toNat_ofNat]
    change (s.toBitVec.toNat * 2 ^ 11 + (q + 1023 + 52).toNat % 2 ^ 11) * 2 ^ 52 + m % 2 ^ 52 = _
    omega
  · rw [if_neg hnormal, toNat_packComponents]
    have hsmall : m < 2 ^ 52 := by
      by_contra hge
      exact hnormal (congrArg Nat.succ ((Nat.log2_eq_iff hm.ne').2 ⟨not_lt.1 hge, hlt⟩))
    simp only [BitVec.toNat_ofNat]
    change (s.toBitVec.toNat * 2 ^ 11 + 0) * 2 ^ 52 + m % 2 ^ 52 = _
    omega

/-- What stands for a number is put together to that number. -/
lemma denotes_of_holds {x : Float} {u : UnpackedFloat} {v : ℚ}
    (hx : x.toBits.toNat = (pack Format.binary64 u).toNat) (h : Holds u v) : Denotes x v := by
  cases h with
  | zero s =>
    have hparts : ofFloat x = .finite (s == .negative) 0 leastExponent := by
      rw [ofFloat, hx]
      cases s <;> decide
    exact ⟨⟨_, _, _, hparts⟩, by rw [hparts, exactValue_zero]⟩
  | @finite s m q hm h =>
    have hparts : ofFloat x = .finite (s == .negative) m q := by
      rw [ofFloat, hx, toNat_pack_finite s hm h, ofBits_signedBitsOf _ h]
    refine ⟨⟨_, _, _, hparts⟩, ?_⟩
    rw [hparts]
    cases s <;> simp [exactValue, Sign.apply]

lemma Denotes.holds {x : Float} {v : ℚ} (h : Denotes x v) : Holds x.toModel.unpack v := by
  obtain ⟨⟨negative, m, q, hparts⟩, rfl⟩ := h
  have hmq := isSignificand_of_ofFloat hparts
  rw [hparts]
  rcases unpack_of_ofBits (b := x.toModel.toBits.toBitVec) hparts with ⟨rfl, hu⟩ | ⟨hm, hu⟩
  · rw [show x.toModel.unpack = _ from hu, exactValue_zero]
    exact .zero _
  · rw [show x.toModel.unpack = _ from hu]
    convert Holds.finite (signOf negative) hm hmq using 1
    cases negative <;> simp [exactValue, signOf, Sign.apply]

/-! ## Rounding what fits -/

section Rounding

variable {m m' : ℕ} {e q : ℤ}

lemma totalExponent_eq_log (hm : 0 < m) (e : ℤ) :
    totalExponent m e = Int.log 2 ((m : ℚ) * 2 ^ e) + 1 := by
  have hp : (0 : ℚ) < 2 ^ e := zpow_pos two_pos e
  rw [log_eq (b := 2) (e := m.log2 + e) (by norm_num), totalExponent]
  · ring
  · rw [Nat.cast_ofNat, zpow_add₀ two_ne_zero]
    exact mul_le_mul_of_nonneg_right (zpow_log2_le hm) hp.le
  · rw [Nat.cast_ofNat, add_right_comm, zpow_add₀ two_ne_zero]
    exact mul_lt_mul_of_pos_right (lt_zpow_log2_add_one m) hp

/-- Whatever significand and exponent a number is given by, rounding aims at the exponent of its
normal form. -/
lemma targetExponent_of_eq (hm' : 0 < m') (hmq : IsSignificand m' q) (hm : 0 < m)
    (hval : (m : ℚ) * 2 ^ e = m' * 2 ^ q) :
    Format.binary64.targetExponent (totalExponent m e) = q := by
  rw [totalExponent_eq_log hm, hval, ← totalExponent_eq_log hm', targetExponent_eq, totalExponent]
  obtain ⟨hlt, hleast, -, hfull⟩ := hmq
  change -1074 ≤ q at hleast
  change q = -1074 ∨ 2 ^ 52 ≤ m' at hfull
  have hlog : m'.log2 < 53 := (Nat.log2_lt hm'.ne').2 hlt
  rcases hfull with rfl | hfull
  · omega
  · have := (Nat.le_log2 hm'.ne').2 hfull
    omega

/-- No bits are lost where all bits that are shifted out are zero. -/
lemma shiftRight_exact (m j k : ℕ) :
    (ExtendedMantissa.ofMantissaAndAccuracy (m * 2 ^ (j + k)) .exact >>> k) =
      ExtendedMantissa.ofMantissaAndAccuracy (m * 2 ^ j) .exact := by
  induction k generalizing j with
  | zero => rfl
  | succ k ih =>
    change ExtendedMantissa.shiftRightOne
      (ExtendedMantissa.ofMantissaAndAccuracy (m * 2 ^ (j + (k + 1))) .exact >>> k) = _
    rw [← Nat.add_assoc, Nat.add_right_comm, ih (j + 1), pow_succ, ← Nat.mul_assoc]
    simp [ExtendedMantissa.ofMantissaAndAccuracy, ExtendedMantissa.shiftRightOne]

lemma shiftToTargetExponent_exact (hm' : 0 < m') (hmq : IsSignificand m' q) (k : ℕ) :
    shiftToTargetExponent Format.binary64 (m' * 2 ^ k) (q - k) .exact =
      (ExtendedMantissa.ofMantissaAndAccuracy m' .exact, q) := by
  have htarget : Format.binary64.targetExponent (totalExponent (m' * 2 ^ k) (q - k)) = q := by
    refine targetExponent_of_eq hm' hmq (by positivity) ?_
    rw [zpow_sub₀ two_ne_zero, zpow_natCast]
    push_cast
    field_simp
  have hshift := shiftRight_exact m' 0 k
  rw [Nat.zero_add, pow_zero, Nat.mul_one] at hshift
  rw [shiftToTargetExponent, htarget, shiftToExponent, show (q - (q - k)).toNat = k by omega]
  simp only [hshift, sub_add_cancel]

/-- A significand that fits after its last bits, all zero, are taken off. -/
lemma roundWithAccuracy_exact (s : Sign) (hm' : 0 < m') (hmq : IsSignificand m' q)
    (hval : (m : ℚ) * 2 ^ e = m' * 2 ^ q) (he : e ≤ q) :
    roundWithAccuracy Format.binary64 s m e .exact = .finite s m' q hm' := by
  obtain ⟨k, rfl⟩ : ∃ k : ℕ, e = q - k := ⟨(q - e).toNat, by omega⟩
  obtain rfl : m = m' * 2 ^ k := by
    rw [zpow_sub₀ two_ne_zero, zpow_natCast, mul_div_assoc', div_eq_iff (by positivity),
      mul_right_comm] at hval
    exact_mod_cast mul_right_cancel₀ (zpow_ne_zero q two_ne_zero) hval
  have hfirst := shiftToTargetExponent_exact hm' hmq k
  have hsecond := shiftToTargetExponent_exact hm' hmq 0
  rw [pow_zero, Nat.mul_one, Nat.cast_zero, sub_zero] at hsecond
  have hrounded : (ExtendedMantissa.ofMantissaAndAccuracy m' .exact).roundedMantissa = m' := rfl
  rw [roundWithAccuracy]
  simp only [hfirst, hrounded, hsecond]
  exact dif_neg hm'.ne'

lemma round_exact (s : Sign) (hm' : 0 < m') (hmq : IsSignificand m' q) (hm : 0 < m)
    (hval : (m : ℚ) * 2 ^ e = m' * 2 ^ q) :
    UnpackedFloat.round Format.binary64 s m e = .finite s m' q hm' := by
  rw [UnpackedFloat.round, targetExponent_of_eq hm' hmq hm hval, decreaseExponent]
  refine roundWithAccuracy_exact s hm' hmq ?_ (by omega)
  rw [Nat.shiftLeft_eq, zpow_sub₀ two_ne_zero, zpow_natCast, ← hval]
  push_cast
  field_simp

/-- The sign of an integer goes into the sign of the number. -/
lemma normalize_of_ne {z : ℤ} (hz : z ≠ 0) (e : ℤ) (zeroSign : Sign) :
    UnpackedFloat.normalize Format.binary64 z e zeroSign =
      UnpackedFloat.round Format.binary64 (signOf (decide (z < 0))) z.natAbs e := by
  rw [UnpackedFloat.normalize]
  rcases lt_or_gt_of_ne hz with hlt | hgt
  · rw [compare_lt_iff_lt.2 hlt, decide_eq_true hlt]
    dsimp only
    rw [show (-z).toNat = z.natAbs by omega]
    rfl
  · rw [compare_gt_iff_gt.2 hgt, decide_eq_false hgt.not_gt]
    dsimp only
    rw [show z.toNat = z.natAbs by omega]
    rfl

lemma apply_signOf (z : ℤ) : (signOf (decide (z < 0))).apply z.natAbs = z := by
  rcases lt_or_ge z 0 with hlt | hge
  · rw [decide_eq_true hlt]
    change -(z.natAbs : ℤ) = z
    omega
  · rw [decide_eq_false hge.not_gt]
    change (z.natAbs : ℤ) = z
    omega

lemma cast_apply (s : Sign) (n : ℤ) : ((s.apply n : ℤ) : ℚ) = (s.apply 1 : ℤ) * n := by
  cases s <;> simp [Sign.apply]

lemma apply_neg (s : Sign) (n : ℤ) : (-s).apply n = -s.apply n := by
  cases s
  · exact (Int.neg_neg n).symm
  · rfl

lemma apply_mul (s₁ s₂ : Sign) : (s₁ * s₂).apply 1 = s₁.apply 1 * s₂.apply 1 := by
  cases s₁ <;> cases s₂ <;> rfl

lemma normalize_exact {z : ℤ} {v : ℚ} (hval : (z : ℚ) * 2 ^ e = v) (hv : Representable v) :
    Holds (UnpackedFloat.normalize Format.binary64 z e .positive) v := by
  have hp : (0 : ℚ) < 2 ^ e := zpow_pos two_pos e
  by_cases hz : z = 0
  · rw [← hval, hz, Int.cast_zero, zero_mul]
    exact .zero _
  obtain ⟨m', q, hmq, habs⟩ := hv
  have hcast : (z.natAbs : ℚ) * 2 ^ e = m' * 2 ^ q := by
    rw [← habs, ← hval, abs_mul, abs_of_pos hp, Nat.cast_natAbs, Int.cast_abs]
  have hm' : 0 < m' := by
    rw [Nat.pos_iff_ne_zero]
    rintro rfl
    have hpos : (0 : ℚ) < z.natAbs := Nat.cast_pos.2 (Int.natAbs_pos.2 hz)
    rw [Nat.cast_zero, zero_mul] at hcast
    exact absurd hcast (mul_pos hpos hp).ne'
  rw [normalize_of_ne hz, round_exact _ hm' hmq (Int.natAbs_pos.2 hz) hcast]
  convert Holds.finite _ hm' hmq using 1
  calc v = ((signOf (decide (z < 0))).apply z.natAbs : ℤ) * 2 ^ e := by rw [apply_signOf, hval]
    _ = ((signOf (decide (z < 0))).apply 1 : ℤ) * (z.natAbs * 2 ^ e) := by
        rw [cast_apply, Int.cast_natCast, mul_assoc]
    _ = ((signOf (decide (z < 0))).apply m' : ℤ) * 2 ^ q := by
        rw [hcast, ← mul_assoc, cast_apply _ (m' : ℤ), Int.cast_natCast]

end Rounding

/-! ## The operations -/

namespace Holds

variable {u₁ u₂ : UnpackedFloat} {v₁ v₂ : ℚ}

/-- A significand that is brought to a smaller exponent. -/
lemma shiftLeft_eq (s : Sign) (m : ℕ) {e t : ℤ} (ht : t ≤ e) :
    ((s.apply (m <<< (e - t).toNat : ℕ) : ℤ) : ℚ) * 2 ^ t = (s.apply m : ℤ) * 2 ^ e := by
  obtain ⟨k, rfl⟩ : ∃ k : ℕ, e = t + k := ⟨(e - t).toNat, by omega⟩
  rw [cast_apply, cast_apply s m, zpow_add₀ two_ne_zero, zpow_natCast, Nat.shiftLeft_eq,
    show (t + k - t).toNat = k by omega]
  push_cast
  ring

lemma add (h₁ : Holds u₁ v₁) (h₂ : Holds u₂ v₂) (hv : Representable (v₁ + v₂)) :
    Holds (UnpackedFloat.add Format.binary64 u₁ u₂) (v₁ + v₂) := by
  cases h₁ with
  | zero s₁ =>
    rw [zero_add]
    cases h₂ with
    | zero s₂ => cases s₁ <;> cases s₂ <;> exact .zero _
    | finite s₂ hm₂ h₂ => exact .finite s₂ hm₂ h₂
  | @finite s₁ m₁ e₁ hm₁ h₁ =>
    cases h₂ with
    | zero s₂ =>
      rw [add_zero]
      exact .finite s₁ hm₁ h₁
    | @finite s₂ m₂ e₂ _ h₂ =>
      refine normalize_exact ?_ hv
      rw [Int.cast_add, add_mul, shiftLeft_eq s₁ m₁ (min_le_left e₁ e₂),
        shiftLeft_eq s₂ m₂ (min_le_right e₁ e₂)]

lemma neg (h : Holds u₁ v₁) : Holds u₁.neg (-v₁) := by
  cases h with
  | zero s =>
    rw [neg_zero]
    exact .zero _
  | @finite s m q hm h =>
    rw [← neg_mul, ← Int.cast_neg, ← apply_neg]
    exact .finite _ hm h

lemma sub (h₁ : Holds u₁ v₁) (h₂ : Holds u₂ v₂) (hv : Representable (v₁ - v₂)) :
    Holds (UnpackedFloat.sub Format.binary64 u₁ u₂) (v₁ - v₂) := by
  cases h₁ with
  | zero s₁ =>
    cases h₂ with
    | zero s₂ =>
      rw [sub_zero]
      cases s₁ <;> cases s₂ <;> exact .zero _
    | finite s₂ hm₂ h₂ =>
      rw [zero_sub]
      exact (Holds.finite s₂ hm₂ h₂).neg
  | @finite s₁ m₁ e₁ hm₁ h₁ =>
    cases h₂ with
    | zero s₂ =>
      rw [sub_zero]
      exact .finite s₁ hm₁ h₁
    | @finite s₂ m₂ e₂ _ h₂ =>
      refine normalize_exact ?_ hv
      rw [Int.cast_sub, sub_mul, shiftLeft_eq s₁ m₁ (min_le_left e₁ e₂),
        shiftLeft_eq s₂ m₂ (min_le_right e₁ e₂)]

/-- A product has more bits than its normal form, or none at all. -/
lemma exponent_le {m₁ m₂ m : ℕ} {e₁ e₂ q : ℤ} (h₁ : IsSignificand m₁ e₁)
    (h₂ : IsSignificand m₂ e₂) (hmq : IsSignificand m q) (hm₁ : 0 < m₁) (hm₂ : 0 < m₂)
    (hval : ((m₁ * m₂ : ℕ) : ℚ) * 2 ^ (e₁ + e₂) = m * 2 ^ q) : e₁ + e₂ ≤ q := by
  by_contra hlt
  obtain ⟨k, hk⟩ : ∃ k : ℕ, e₁ + e₂ = q + (k + 1 : ℕ) := ⟨(e₁ + e₂ - q - 1).toNat, by omega⟩
  rw [hk, zpow_add₀ two_ne_zero, zpow_natCast, mul_comm ((2 : ℚ) ^ q), ← mul_assoc] at hval
  have hm : m₁ * m₂ * 2 ^ (k + 1) = m := by
    exact_mod_cast mul_right_cancel₀ (zpow_ne_zero q two_ne_zero) hval
  have hsmall : m₁ * m₂ * 2 < 2 ^ 53 := by
    refine lt_of_le_of_lt ?_ hmq.lt
    rw [← hm, pow_succ', ← mul_assoc]
    exact Nat.le_mul_of_pos_right _ (by positivity)
  have hfull₁ : e₁ = leastExponent ∨ 2 ^ 52 ≤ m₁ := h₁.full
  have hfull₂ : e₂ = leastExponent ∨ 2 ^ 52 ≤ m₂ := h₂.full
  -- one of the factors has all bits, or both have the least exponent
  rcases hfull₁ with he₁ | hm₁'
  · rcases hfull₂ with he₂ | hm₂'
    · have hleast := hmq.least_le
      rw [he₁, he₂] at hk
      change -1074 ≤ q at hleast
      change -1074 + -1074 = _ at hk
      omega
    · nlinarith
  · nlinarith

lemma mul (h₁ : Holds u₁ v₁) (h₂ : Holds u₂ v₂) (hv : Representable (v₁ * v₂)) :
    Holds (UnpackedFloat.mul Format.binary64 u₁ u₂) (v₁ * v₂) := by
  cases h₁ with
  | zero s₁ =>
    rw [zero_mul]
    cases h₂ with
    | zero s₂ => exact .zero _
    | finite s₂ hm₂ h₂ => exact .zero _
  | @finite s₁ m₁ e₁ hm₁ h₁ =>
    cases h₂ with
    | zero s₂ =>
      rw [mul_zero]
      exact .zero _
    | @finite s₂ m₂ e₂ hm₂ h₂ =>
      obtain ⟨m, q, hmq, habs⟩ := hv
      have hsigns : ((s₁.apply m₁ : ℤ) : ℚ) * 2 ^ e₁ * ((s₂.apply m₂ : ℤ) * 2 ^ e₂) =
          ((s₁ * s₂).apply 1 : ℤ) * (((m₁ * m₂ : ℕ) : ℚ) * 2 ^ (e₁ + e₂)) := by
        rw [cast_apply s₁, cast_apply s₂, apply_mul, zpow_add₀ two_ne_zero]
        push_cast
        ring
      have hval : ((m₁ * m₂ : ℕ) : ℚ) * 2 ^ (e₁ + e₂) = m * 2 ^ q := by
        rw [← habs, hsigns, abs_mul, abs_of_pos (by positivity : (0 : ℚ) < _ * 2 ^ (e₁ + e₂))]
        cases s₁ * s₂ <;> simp [Sign.apply]
      have hm : 0 < m := by
        rw [Nat.pos_iff_ne_zero]
        rintro rfl
        rw [Nat.cast_zero, zero_mul] at hval
        exact absurd hval (by positivity)
      rw [hsigns, hval, UnpackedFloat.mul,
        roundWithAccuracy_exact _ hm hmq hval (exponent_le h₁ h₂ hmq hm₁ hm₂ hval), ← mul_assoc]
      convert Holds.finite _ hm hmq using 2
      rw [cast_apply _ (m : ℤ), Int.cast_natCast]

end Holds

section

variable {x y : Float} {v w : ℚ}

/-- A sum that fits is exact. -/
lemma Denotes.add (hx : Denotes x v) (hy : Denotes y w) (h : Representable (v + w)) :
    Denotes (x + y) (v + w) :=
  denotes_of_holds rfl (hx.holds.add hy.holds h)

/-- A difference that fits is exact. -/
lemma Denotes.subtract (hx : Denotes x v) (hy : Denotes y w) (h : Representable (v - w)) :
    Denotes (x - y) (v - w) :=
  denotes_of_holds rfl (hx.holds.sub hy.holds h)

/-- A product that fits is exact. -/
lemma Denotes.multiply (hx : Denotes x v) (hy : Denotes y w) (h : Representable (v * w)) :
    Denotes (x * y) (v * w) :=
  denotes_of_holds rfl (hx.holds.mul hy.holds h)

/-- The opposite of a number is exact. -/
lemma Denotes.negate (hx : Denotes x v) : Denotes (-x) (-v) :=
  denotes_of_holds rfl hx.holds.neg

end

/-- The opposite of a number has the same parts, apart from the sign. -/
lemma ofFloat_neg {x : Float} {negative : Bool} {m : ℕ} {q : ℤ}
    (h : ofFloat x = .finite negative m q) : ofFloat (-x) = .finite (!negative) m q := by
  have hmq := isSignificand_of_ofFloat h
  change ofBits (pack Format.binary64 x.toModel.unpack.neg).toNat = _
  rcases unpack_of_ofBits (b := x.toModel.toBits.toBitVec) h with ⟨rfl, hu⟩ | ⟨hm, hu⟩
  · rw [show x.toModel.unpack = _ from hu,
      show q = leastExponent from hmq.full.resolve_right (by norm_num [fractionBits])]
    cases negative <;> decide
  · rw [show x.toModel.unpack = _ from hu, UnpackedFloat.neg, toNat_pack_finite _ hm hmq,
      ofBits_signedBitsOf _ hmq]
    cases negative <;> rfl

lemma neg_neg_of_finite {x : Float} {negative : Bool} {m : ℕ} {q : ℤ}
    (h : ofFloat x = .finite negative m q) : -(-x) = x := by
  have htwice := ofFloat_neg (ofFloat_neg h)
  rw [Bool.not_not] at htwice
  exact eq_of_parts htwice h

end Binary64

end DeskCalculator
