import DeskCalculator.Proofs.Number.Bits
import Mathlib.Data.Nat.Sqrt

/-!
# Square roots are finite

The square root of a finite number is not infinite (`sqrt_ne_infinity`): its exponent is about half
of that of the number, and rounding moves an exponent by at most the number of bits of the
significand, so that it stays far below the exponents that do not fit.  The bounds are generous,
since nothing else about the square root is needed.
-/

namespace DeskCalculator

namespace Binary64

open Float.Model (Format UnpackedFloat totalExponent)
open Float.Model.UnpackedFloat

/-! ## Exponents and rounding -/

lemma log2_le_of_lt {n k : Nat} (h : n < 2 ^ k) : n.log2 ≤ k := by
  rcases Nat.eq_zero_or_pos n with rfl | hn
  · exact Nat.zero_le k
  · exact Nat.le_of_lt ((Nat.log2_lt (Nat.ne_of_gt hn)).2 h)

lemma targetExponent_eq (t : Int) : Format.binary64.targetExponent t = max (t - 53) (-1074) := rfl

lemma mantissa_shiftRight_le (em : ExtendedMantissa) (n : Nat) :
    (em >>> n).mantissa ≤ em.mantissa := by
  induction n with
  | zero => exact Nat.le_refl _
  | succ n ih => exact Nat.le_trans (Nat.div_le_self _ 2) ih

lemma mantissa_ofMantissaAndAccuracy (m : Nat) (accuracy : Accuracy) :
    (ExtendedMantissa.ofMantissaAndAccuracy m accuracy).mantissa = m := by
  rcases accuracy with _ | (_ | _ | _) <;> rfl

lemma roundedMantissa_le (em : ExtendedMantissa) : em.roundedMantissa ≤ em.mantissa + 1 := by
  obtain ⟨m, roundBit, stickyBit⟩ := em
  cases roundBit <;> cases stickyBit
  · exact Nat.le_succ m
  · exact Nat.le_succ m
  · exact Nat.add_le_add_left (Nat.lt_succ_iff.1 (Nat.mod_lt m (by decide))) m
  · exact Nat.le_refl _

/-- The exponent after the bits of the significand have been shifted out that do not fit. -/
def shiftedExponent (m : Nat) (e : Int) : Int :=
  e + (Format.binary64.targetExponent (totalExponent m e) - e).toNat

/-- The significand after they have been shifted out and it has been rounded. -/
def roundedSignificand (m : Nat) (e : Int) (accuracy : Accuracy) : Nat :=
  (ExtendedMantissa.ofMantissaAndAccuracy m accuracy >>>
    (Format.binary64.targetExponent (totalExponent m e) - e).toNat).roundedMantissa

lemma shiftedExponent_le {m k : Nat} (hm : m < 2 ^ k) {e bound : Int} (he : e ≤ bound)
    (hleast : -1074 ≤ bound) : shiftedExponent m e ≤ bound + k := by
  have hlog := log2_le_of_lt hm
  rw [shiftedExponent, targetExponent_eq, totalExponent]
  omega

lemma roundedSignificand_lt {m k : Nat} (hm : m < 2 ^ k) (e : Int) (accuracy : Accuracy) :
    roundedSignificand m e accuracy < 2 ^ (k + 1) := by
  have hround := roundedMantissa_le (ExtendedMantissa.ofMantissaAndAccuracy m accuracy >>>
    (Format.binary64.targetExponent (totalExponent m e) - e).toNat)
  have hshift := mantissa_shiftRight_le (ExtendedMantissa.ofMantissaAndAccuracy m accuracy)
    (Format.binary64.targetExponent (totalExponent m e) - e).toNat
  have hpos : 0 < 2 ^ k := Nat.two_pow_pos k
  rw [mantissa_ofMantissaAndAccuracy] at hshift
  rw [roundedSignificand, Nat.pow_succ]
  omega

/-- Rounding gives zero, or it leaves the exponent below every bound that is large enough for the
number of bits of the significand. -/
lemma roundWithAccuracy_cases (s : Sign) {m k : Nat} (hm : m < 2 ^ k) {e bound : Int}
    (he : e ≤ bound) (hleast : -1074 ≤ bound) (accuracy : Accuracy) :
    roundWithAccuracy Format.binary64 s m e accuracy = .zero s ∨
      ∃ m' e' hm', roundWithAccuracy Format.binary64 s m e accuracy = .finite s m' e' hm' ∧
        e' ≤ bound + k + (k + 1 : Nat) := by
  have hbound : shiftedExponent (roundedSignificand m e accuracy) (shiftedExponent m e) ≤
      bound + k + (k + 1 : Nat) :=
    shiftedExponent_le (roundedSignificand_lt hm e accuracy) (shiftedExponent_le hm he hleast)
      (by omega)
  -- after rounding the significand is shifted once more, which only matters if it has been carried
  obtain ⟨m', hround⟩ : ∃ m', roundWithAccuracy Format.binary64 s m e accuracy =
      if h : m' = 0 then .zero s
      else .finite s m' (shiftedExponent (roundedSignificand m e accuracy) (shiftedExponent m e))
        (Nat.pos_of_ne_zero h) := ⟨_, rfl⟩
  by_cases hzero : m' = 0
  · exact Or.inl (hround.trans (dif_pos hzero))
  · exact Or.inr ⟨m', _, _, hround.trans (dif_neg hzero), hbound⟩

/-! ## Patterns that are not that of infinity -/

/-- The pattern of a positive number whose exponent is not too large is below that of infinity. -/
lemma pack_positive_lt {m : Nat} (hm : 0 < m) {e : Int} (he : e ≤ 970) :
    (UnpackedFloat.pack Format.binary64 (.finite .positive m e hm)).toNat < infinityBits := by
  have hfield : (e + Format.binary64.exponentBias + (52 : Nat)).toNat ≤ 2045 := by
    rw [show Format.binary64.exponentBias = 1023 from rfl]
    omega
  have hfits : ¬ 2 ^ 11 ≤ (e + Format.binary64.exponentBias + (52 : Nat)).toNat + 1 := by omega
  have hcomponents : ∀ (field : BitVec 11) (fraction : BitVec 52), field.toNat < 2047 →
      (packComponents Format.binary64 .positive field fraction).toNat < infinityBits := by
    intro field fraction hlt
    have hfraction := fraction.isLt
    rw [toNat_packComponents]
    change (0 * 2 ^ 11 + field.toNat) * 2 ^ 52 + fraction.toNat < 2047 * 2 ^ 52
    omega
  rw [UnpackedFloat.pack]
  simp only [if_neg hfits]
  split
  · refine hcomponents _ _ ?_
    rw [BitVec.toNat_ofNat]
    exact Nat.lt_of_le_of_lt (Nat.mod_le _ _) (by omega)
  · exact hcomponents _ _ (by decide)

/-- A pattern below that of infinity is taken apart into zero or a positive number. -/
lemma unpack_of_lt {b : BitVec Format.binary64.numBits} (hb : b.toNat < infinityBits) :
    UnpackedFloat.unpack Format.binary64 b = .zero .positive ∨
      ∃ m e hm, UnpackedFloat.unpack Format.binary64 b = .finite .positive m e hm := by
  change b.toNat < 2047 * 2 ^ 52 at hb
  have hsign : unpackSign b = 0#1 := by
    apply BitVec.eq_of_toNat_eq
    rw [toNat_unpackSign]
    change b.toNat / 2 ^ 63 % 2 = 0
    omega
  have htop : ¬ unpackExponent b = -BitVec.ofNat Format.binary64.exponentBits 1 := by
    rw [unpackExponent_eq_top_iff]
    change ¬ b.toNat / 2 ^ 52 % 2 ^ 11 = 2047
    omega
  rw [UnpackedFloat.unpack, hsign, if_neg htop]
  by_cases hleast : unpackExponent b = 0#_
  · rw [if_pos hleast]
    by_cases hzero : unpackMantissa b = 0#_
    · rw [dif_pos hzero]
      exact Or.inl rfl
    · rw [dif_neg hzero]
      exact Or.inr ⟨_, _, _, rfl⟩
  · rw [if_neg hleast]
    exact Or.inr ⟨_, _, _, rfl⟩

/-- The significand and the exponent that a pattern is taken apart into. -/
lemma unpack_finite {b : BitVec Format.binary64.numBits} {s : Sign} {m : Nat} {e : Int}
    {hm : 0 < m} (h : UnpackedFloat.unpack Format.binary64 b = .finite s m e hm) :
    m < 2 ^ 53 ∧ e ≤ 971 := by
  have hmant : (unpackMantissa b).toNat < 2 ^ 52 := (unpackMantissa b).isLt
  have hexp : (unpackExponent b).toNat < 2 ^ 11 := (unpackExponent b).isLt
  rw [UnpackedFloat.unpack] at h
  by_cases htop : unpackExponent b = -1#_
  · simp only [if_pos htop] at h
    split at h <;> cases h
  have hne : (unpackExponent b).toNat ≠ 2047 := fun heq => htop (BitVec.eq_of_toNat_eq heq)
  simp only [if_neg htop] at h
  by_cases hlow : unpackExponent b = 0#_
  · simp only [if_pos hlow] at h
    split at h
    · cases h
    · obtain ⟨-, rfl, rfl⟩ := UnpackedFloat.finite.inj h
      refine ⟨by omega, ?_⟩
      rw [hlow]
      decide
  · simp only [if_neg hlow] at h
    obtain ⟨-, rfl, rfl⟩ := UnpackedFloat.finite.inj h
    rw [toNat_append_one, show Format.binary64.exponentBias = 1023 from rfl]
    omega

/-- The integer square root that the significand of a square root is rounded from, and its
exponent. -/
lemma sqrtCore_bounds {m : Nat} (hm : m < 2 ^ 53) {e : Int} (he : e ≤ 971) :
    (sqrtCore Format.binary64 m e).1 < 2 ^ 159 ∧ (sqrtCore Format.binary64 m e).2.1 ≤ 485 := by
  have hlog := log2_le_of_lt hm
  have hdiv : ∀ n : Int, n.ediv 2 = n / 2 := fun _ => rfl
  rw [sqrtCore]
  simp only [targetExponent_eq, totalExponent, hdiv]
  refine ⟨Nat.lt_of_le_of_lt (Nat.sqrt_le_self _) ?_, by omega⟩
  -- the shift makes up for the difference between the bits that there are and those that are needed
  generalize hshift : (e - 2 * min (e / 2) (max ((m.log2 + 1 + e + 1) / 2 - 53) (-1074))).toNat = n
  have hn : n ≤ 106 := by omega
  calc m <<< n = m * 2 ^ n := Nat.shiftLeft_eq m n
    _ ≤ m * 2 ^ 106 := Nat.mul_le_mul_left m (Nat.pow_le_pow_right (by decide) hn)
    _ < 2 ^ 53 * 2 ^ 106 := Nat.mul_lt_mul_of_pos_right hm (by decide)
    _ = 2 ^ 159 := by decide

/-- The square root of a positive number is one whose exponent is not too large, or zero. -/
lemma pack_sqrt_lt {m : Nat} {e : Int} (hm : 0 < m) (hlt : m < 2 ^ 53) (hle : e ≤ 971) :
    (UnpackedFloat.pack Format.binary64
      (UnpackedFloat.sqrt Format.binary64 (.finite .positive m e hm))).toNat < infinityBits := by
  obtain ⟨hroot, hexp⟩ := sqrtCore_bounds hlt hle
  have hsqrt : UnpackedFloat.sqrt Format.binary64 (.finite .positive m e hm) =
      roundWithAccuracy Format.binary64 .positive (sqrtCore Format.binary64 m e).1
        (sqrtCore Format.binary64 m e).2.1 (sqrtCore Format.binary64 m e).2.2 := rfl
  rcases roundWithAccuracy_cases .positive hroot hexp (by decide)
    (sqrtCore Format.binary64 m e).2.2 with hzero | ⟨m', e', hm', hfinite, he'⟩
  · rw [hsqrt, hzero]
    decide
  · rw [hsqrt, hfinite]
    exact pack_positive_lt hm' (by omega)

/-- **Square roots are finite.**  The square root of a finite number is not infinite. -/
lemma sqrt_ne_infinity {x : Float} (hx : x.isFinite = true) :
    x.sqrt.toBits.toNat ≠ infinityBits := by
  change (UnpackedFloat.pack Format.binary64
    (UnpackedFloat.sqrt Format.binary64 x.toModel.unpack)).toNat ≠ infinityBits
  have hx' : x.toModel.unpack.isFinite = true := hx
  rcases hu : x.toModel.unpack with s | _ | s | ⟨s, m, e, hm⟩
  · rw [hu] at hx'
    cases hx'
  · rw [hu] at hx'
    cases hx'
  · cases s <;> decide
  · obtain ⟨hlt, hle⟩ := unpack_finite hu
    cases s
    · change (UnpackedFloat.pack Format.binary64 .notANumber).toNat ≠ _
      decide
    · exact Nat.ne_of_lt (pack_sqrt_lt hm hlt hle)

/-- **Square roots of numbers that are finite and not negative are such numbers.** -/
lemma exists_ofFloat_sqrt {x : Float} {m : Nat} {q : Int} (h : ofFloat x = .finite false m q) :
    ∃ m' q', ofFloat x.sqrt = .finite false m' q' := by
  obtain ⟨hsignificand, hbits⟩ := ofBits_eq_finite x.toBits.toNat_lt h
  have hx : x.toModel.toBits.toBitVec.toNat < infinityBits :=
    hbits.trans_lt (bitsOf_lt hsignificand)
  have hlt : x.sqrt.toBits.toNat < infinityBits := by
    change (UnpackedFloat.pack Format.binary64 (UnpackedFloat.sqrt Format.binary64
      (UnpackedFloat.unpack Format.binary64 x.toModel.toBits.toBitVec))).toNat < infinityBits
    rcases unpack_of_lt hx with hu | ⟨m', e, hm, hu⟩
    · rw [hu]
      decide
    · obtain ⟨hm', he⟩ := unpack_finite hu
      rw [hu]
      exact pack_sqrt_lt hm hm' he
  obtain ⟨m', q', hroot⟩ := ofFloat_ofBits hlt
  rw [UInt64.ofNat_toNat, Float.ofBits_toBits] at hroot
  exact ⟨m', q', hroot⟩

/-- **Negative numbers have no square root.**  The infinite one included. -/
lemma ofFloat_sqrt_of_neg {x : Float} (hx : x < 0) : ofFloat x.sqrt = .nan := by
  have hneg : x.toModel.unpack.lt (.zero .positive) = true := by
    have hlt : x.toModel.unpack.lt (0 : Float).toModel.unpack = true := of_decide_eq_true hx
    rwa [show (0 : Float).toModel.unpack = .zero .positive from rfl] at hlt
  change ofBits (UnpackedFloat.pack Format.binary64
    (UnpackedFloat.sqrt Format.binary64 x.toModel.unpack)).toNat = .nan
  rcases hu : x.toModel.unpack with s | _ | s | ⟨s, m, e, hm⟩
  · rw [hu] at hneg
    cases s
    · decide
    · cases hneg
  · rw [hu] at hneg
    cases hneg
  · rw [hu] at hneg
    cases s <;> cases hneg
  · rw [hu] at hneg
    cases s
    · change ofBits (UnpackedFloat.pack Format.binary64 .notANumber).toNat = .nan
      decide
    · cases hneg

end Binary64

end DeskCalculator
