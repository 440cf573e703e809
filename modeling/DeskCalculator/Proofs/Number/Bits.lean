import DeskCalculator.Number.Binary64
import Mathlib

/-!
# Bit patterns

The patterns up to that of infinity are those of the numbers that are not
negative, in their order: the pattern of `m · 2 ^ q` is `bitsOf m q` (`eq_of_ofFloat`), and every
pattern below that of infinity belongs to a finite number (`ofFloat_ofBits`).
-/

namespace DeskCalculator

namespace Binary64

open Float.Model (Format UnpackedFloat)
open Float.Model.UnpackedFloat

/-! ## The fields of a pattern -/

lemma toNat_unpackMantissa (b : BitVec Format.binary64.numBits) :
    (unpackMantissa b).toNat = b.toNat % 2 ^ 52 := by
  simp [unpackMantissa, BitVec.extractLsb, BitVec.extractLsb']

lemma toNat_unpackExponent (b : BitVec Format.binary64.numBits) :
    (unpackExponent b).toNat = b.toNat / 2 ^ 52 % 2 ^ 11 := by
  simp [unpackExponent, BitVec.extractLsb, BitVec.extractLsb', Nat.shiftRight_eq_div_pow]

lemma toNat_unpackSign (b : BitVec Format.binary64.numBits) :
    (unpackSign b).toNat = b.toNat / 2 ^ 63 % 2 := by
  simp [unpackSign, BitVec.extractLsb, BitVec.extractLsb', Nat.shiftRight_eq_div_pow]

lemma toNat_packComponents (s : Sign) (e : BitVec 11) (m : BitVec 52) :
    (packComponents Format.binary64 s e m).toNat =
      (s.toBitVec.toNat * 2 ^ 11 + e.toNat) * 2 ^ 52 + m.toNat := by
  rw [packComponents]
  simp only [BitVec.toNat_append]
  rw [← Nat.shiftLeft_add_eq_or_of_lt e.isLt, ← Nat.shiftLeft_add_eq_or_of_lt m.isLt]
  simp only [Nat.shiftLeft_eq]

lemma toNat_append_one (m : BitVec 52) : (1#1 ++ m).toNat = 2 ^ 52 + m.toNat := by
  rw [BitVec.toNat_append, ← Nat.shiftLeft_add_eq_or_of_lt m.isLt, Nat.shiftLeft_eq]
  rfl

/-- The bit pattern of infinity. -/
def infinityBits : Nat := topField * 2 ^ fractionBits

lemma toNat_pattern {n : Nat} (hn : n ≤ infinityBits) :
    (BitVec.ofNat Format.binary64.numBits n).toNat = n := by
  have hlt : n < 2 ^ 64 := Nat.lt_of_le_of_lt hn (by decide)
  rw [BitVec.toNat_ofNat]
  exact Nat.mod_eq_of_lt hlt

/-- A pattern up to that of infinity is the pattern of a number. -/
lemma valid_of_le {n : Nat} (hn : n ≤ infinityBits) :
    Format.binary64.Valid (BitVec.ofNat Format.binary64.numBits n) := by
  refine ⟨fun htop hzero => absurd (BitVec.eq_of_toNat_eq ?_) hzero⟩
  have hfield := congrArg BitVec.toNat htop
  rw [toNat_unpackExponent, toNat_pattern hn] at hfield
  rw [toNat_unpackMantissa, toNat_pattern hn]
  change n / 2 ^ 52 % 2 ^ 11 = 2047 at hfield
  change n ≤ 2047 * 2 ^ 52 at hn
  change n % 2 ^ 52 = 0
  omega

lemma toBits_ofBits {n : Nat} (hn : n ≤ infinityBits) :
    (Float.ofBits (UInt64.ofNat n)).toBits.toNat = n := by
  have hpack := congrArg BitVec.toNat (pack_unpack_of_valid (valid_of_le hn))
  rw [toNat_pattern hn] at hpack
  exact hpack

/-! ## Numbers that are not negative -/

/-- The significands and exponents of the finite numbers: all bits of the significand are used,
unless the exponent is the least one. -/
structure IsSignificand (m : Nat) (q : Int) : Prop where
  lt : m < 2 ^ 53
  least_le : leastExponent ≤ q
  le_most : q ≤ 971
  full : q = leastExponent ∨ 2 ^ fractionBits ≤ m

/-- The bit pattern of `m · 2 ^ q`. -/
def bitsOf (m : Nat) (q : Int) : Nat := (q - leastExponent).toNat * 2 ^ fractionBits + m

lemma bitsOf_lt {m : Nat} {q : Int} (h : IsSignificand m q) : bitsOf m q < infinityBits := by
  obtain ⟨hlt, hleast, hmost, -⟩ := h
  change (q - -1074).toNat * 2 ^ 52 + m < 2047 * 2 ^ 52
  change -1074 ≤ q at hleast
  omega

/-- The pattern of `± m · 2 ^ q`. -/
def signedBitsOf (negative : Bool) (m : Nat) (q : Int) : Nat :=
  (if negative then 2 ^ 63 else 0) + bitsOf m q

/-- A pattern of a finite number is that of its parts. -/
lemma eq_signedBitsOf {bits : Nat} (hbits : bits < 2 ^ 64) {negative : Bool} {m : Nat} {q : Int}
    (h : ofBits bits = .finite negative m q) :
    IsSignificand m q ∧ bits = signedBitsOf negative m q := by
  have hsigned : signedBitsOf (decide (bits / 2 ^ 63 % 2 = 1)) m q =
      bits / 2 ^ 63 % 2 * 2 ^ 63 + bitsOf m q := by
    rw [signedBitsOf]
    congr 1
    rcases Nat.mod_two_eq_zero_or_one (bits / 2 ^ 63) with hsign | hsign <;> rw [hsign] <;> rfl
  rw [ofBits] at h
  by_cases htop : bits / 2 ^ fractionBits % 2 ^ 11 = topField
  · rw [if_pos htop] at h
    split at h <;> cases h
  rw [if_neg htop] at h
  change ¬ bits / 2 ^ 52 % 2 ^ 11 = 2047 at htop
  by_cases hzero : bits / 2 ^ fractionBits % 2 ^ 11 = 0
  · rw [if_pos hzero] at h
    change bits / 2 ^ 52 % 2 ^ 11 = 0 at hzero
    obtain ⟨rfl, rfl, rfl⟩ := Binary64.finite.inj h
    refine ⟨⟨?_, Int.le_refl _, by decide, Or.inl rfl⟩, ?_⟩
    · change bits % 2 ^ 52 < 2 ^ 53
      omega
    · rw [hsigned]
      change bits = bits / 2 ^ 63 % 2 * 2 ^ 63 +
        ((-1074 - -1074 : Int).toNat * 2 ^ 52 + bits % 2 ^ 52)
      omega
  · rw [if_neg hzero] at h
    change ¬ bits / 2 ^ 52 % 2 ^ 11 = 0 at hzero
    obtain ⟨rfl, rfl, rfl⟩ := Binary64.finite.inj h
    refine ⟨⟨?_, ?_, ?_, Or.inr (Nat.le_add_right _ _)⟩, ?_⟩
    · change 2 ^ 52 + bits % 2 ^ 52 < 2 ^ 53
      omega
    · exact Int.le_add_of_nonneg_right (Int.natCast_nonneg _)
    · change -1074 + ((bits / 2 ^ 52 % 2 ^ 11 - 1 : Nat) : Int) ≤ 971
      omega
    · rw [hsigned]
      change bits = bits / 2 ^ 63 % 2 * 2 ^ 63 +
        ((-1074 + ((bits / 2 ^ 52 % 2 ^ 11 - 1 : Nat) : Int) - -1074).toNat * 2 ^ 52 +
          (2 ^ 52 + bits % 2 ^ 52))
      omega

lemma ofBits_eq_finite {bits : Nat} (hbits : bits < 2 ^ 64) {m : Nat} {q : Int}
    (h : ofBits bits = .finite false m q) : IsSignificand m q ∧ bits = bitsOf m q := by
  obtain ⟨hmq, heq⟩ := eq_signedBitsOf hbits h
  exact ⟨hmq, heq.trans (Nat.zero_add _)⟩

/-- The parts of the pattern of a finite number. -/
lemma ofBits_signedBitsOf (negative : Bool) {m : Nat} {q : Int} (h : IsSignificand m q) :
    ofBits (signedBitsOf negative m q) = .finite negative m q := by
  obtain ⟨hlt, hleast, hmost, hfull⟩ := h
  change -1074 ≤ q at hleast
  change q = -1074 ∨ 2 ^ 52 ≤ m at hfull
  obtain ⟨s, hs, hsign⟩ : ∃ s < 2, signedBitsOf negative m q =
      s * 2 ^ 63 + ((q - -1074).toNat * 2 ^ 52 + m) ∧ decide (s = 1) = negative := by
    cases negative
    · exact ⟨0, by decide, rfl, rfl⟩
    · exact ⟨1, by decide, rfl, rfl⟩
  obtain ⟨hbits, rfl⟩ := hsign
  generalize signedBitsOf (decide (s = 1)) m q = bits at hbits
  have hnegative : bits / 2 ^ 63 % 2 = s := by omega
  have htop : ¬ bits / 2 ^ fractionBits % 2 ^ 11 = topField := by
    change ¬ bits / 2 ^ 52 % 2 ^ 11 = 2047
    omega
  rw [ofBits, if_neg htop, hnegative]
  -- the leading bit of the significand, where there is one, has gone into the exponent field
  by_cases hm : m < 2 ^ 52
  · have hzero : bits / 2 ^ fractionBits % 2 ^ 11 = 0 := by
      change bits / 2 ^ 52 % 2 ^ 11 = 0
      omega
    rw [if_pos hzero]
    congr 1
    · change bits % 2 ^ 52 = m
      omega
    · change -1074 = q
      omega
  · have hzero : ¬ bits / 2 ^ fractionBits % 2 ^ 11 = 0 := by
      change ¬ bits / 2 ^ 52 % 2 ^ 11 = 0
      omega
    rw [if_neg hzero]
    congr 1
    · change 2 ^ 52 + bits % 2 ^ 52 = m
      omega
    · change -1074 + ((bits / 2 ^ 52 % 2 ^ 11 - 1 : Nat) : Int) = q
      omega

lemma isSignificand_of_ofFloat {x : Float} {negative : Bool} {m : Nat} {q : Int}
    (h : ofFloat x = .finite negative m q) : IsSignificand m q :=
  (eq_signedBitsOf x.toBits.toNat_lt h).1

/-- The number with the pattern of `m · 2 ^ q`. -/
lemma eq_of_ofFloat {x : Float} {m : Nat} {q : Int} (h : ofFloat x = .finite false m q) :
    x = Float.ofBits (UInt64.ofNat (bitsOf m q)) := by
  rw [← (ofBits_eq_finite x.toBits.toNat_lt h).2, UInt64.ofNat_toNat, Float.ofBits_toBits]

/-- A finite number is determined by its parts. -/
lemma eq_of_parts {x y : Float} {negative : Bool} {m : Nat} {q : Int}
    (hx : ofFloat x = .finite negative m q) (hy : ofFloat y = .finite negative m q) : x = y := by
  have hbits : x.toBits = y.toBits := by
    rw [← UInt64.toNat_inj, (eq_signedBitsOf x.toBits.toNat_lt hx).2,
      (eq_signedBitsOf y.toBits.toNat_lt hy).2]
  rw [← Float.ofBits_toBits x, hbits, Float.ofBits_toBits]

/-! ## The kinds of numbers -/

/-- The exponent field that the core library takes off is the one of the pattern. -/
lemma unpackExponent_eq_top_iff (b : BitVec Format.binary64.numBits) :
    unpackExponent b = -BitVec.ofNat Format.binary64.exponentBits 1 ↔
      b.toNat / 2 ^ fractionBits % 2 ^ 11 = topField := by
  rw [← BitVec.toNat_inj, toNat_unpackExponent]
  exact Iff.rfl

lemma unpackMantissa_eq_zero_iff (b : BitVec Format.binary64.numBits) :
    unpackMantissa b = BitVec.ofNat Format.binary64.mantissaBitsWithoutImplicit 0 ↔
      b.toNat % 2 ^ fractionBits = 0 := by
  rw [← BitVec.toNat_inj, toNat_unpackMantissa]
  exact Iff.rfl

/-- The parts of a number say that it is none exactly if the core library says so. -/
lemma ofFloat_eq_nan_iff (x : Float) : ofFloat x = .nan ↔ x.isNaN = true := by
  have hunpack : x.isNaN = (unpack Format.binary64 x.toModel.toBits.toBitVec).isNaN := rfl
  have htop := unpackExponent_eq_top_iff x.toModel.toBits.toBitVec
  have hzero := unpackMantissa_eq_zero_iff x.toModel.toBits.toBitVec
  rw [hunpack, unpack, ofFloat, ofBits]
  by_cases hfield : x.toBits.toNat / 2 ^ fractionBits % 2 ^ 11 = topField
  · rw [if_pos hfield, if_pos (htop.2 hfield)]
    by_cases hfraction : x.toBits.toNat % 2 ^ fractionBits = 0
    · rw [if_pos hfraction, if_pos (hzero.2 hfraction)]
      exact ⟨nofun, nofun⟩
    · rw [if_neg hfraction, if_neg fun h => hfraction (hzero.1 h)]
      exact ⟨fun _ => rfl, fun _ => rfl⟩
  · rw [if_neg hfield, if_neg fun h => hfield (htop.1 h)]
    constructor
    · intro h
      split at h <;> cases h
    · intro h
      split at h
      · split at h <;> cases h
      · cases h

/-- The field of the exponent tells whether a number is finite. -/
lemma isFinite_iff (x : Float) :
    x.isFinite = true ↔ ¬x.toBits.toNat / 2 ^ fractionBits % 2 ^ 11 = topField := by
  refine Iff.trans ?_ (not_congr (unpackExponent_eq_top_iff x.toModel.toBits.toBitVec))
  change (unpack Format.binary64 x.toModel.toBits.toBitVec).isFinite = true ↔ _
  rw [unpack]
  split
  · rename_i htop
    refine iff_of_false ?_ (not_not_intro htop)
    split <;> exact Bool.false_ne_true
  · rename_i htop
    refine iff_of_true ?_ htop
    split
    · split <;> rfl
    · rfl

/-- A number is finite only if it has a significand and an exponent. -/
lemma exists_ofFloat_of_isFinite {x : Float} (hx : x.isFinite = true) :
    ∃ negative m q, ofFloat x = .finite negative m q := by
  rw [ofFloat, ofBits, if_neg ((isFinite_iff x).1 hx)]
  split
  · exact ⟨_, _, _, rfl⟩
  · exact ⟨_, _, _, rfl⟩

/-- What is not finite is an infinity, or not a number. -/
lemma ofFloat_of_not_isFinite {x : Float} (hx : x.isFinite = false) :
    ofFloat x = .nan ∨ ∃ negative, ofFloat x = .infinite negative := by
  have htop := mt (isFinite_iff x).2 (by rw [hx]; exact Bool.false_ne_true)
  rw [ofFloat, ofBits, if_pos (Decidable.not_not.1 htop)]
  split
  · exact Or.inr ⟨_, rfl⟩
  · exact Or.inl rfl

/-- A pattern below that of infinity belongs to a finite number. -/
lemma ofFloat_ofBits {n : Nat} (hn : n < infinityBits) :
    ∃ m q, ofFloat (Float.ofBits (UInt64.ofNat n)) = .finite false m q := by
  rw [ofFloat, toBits_ofBits (Nat.le_of_lt hn), ofBits]
  change n < 2047 * 2 ^ 52 at hn
  have hsign : ¬ n / 2 ^ 63 % 2 = 1 := by omega
  have htop : ¬ n / 2 ^ fractionBits % 2 ^ 11 = topField := by
    change ¬ n / 2 ^ 52 % 2 ^ 11 = 2047
    omega
  rw [if_neg htop, decide_eq_false hsign]
  split
  · exact ⟨_, _, rfl⟩
  · exact ⟨_, _, rfl⟩

end Binary64

end DeskCalculator
