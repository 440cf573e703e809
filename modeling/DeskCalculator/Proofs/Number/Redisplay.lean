import DeskCalculator.Proofs.Number.DisplayRounding
import DeskCalculator.Proofs.Number.Neighbours

/-!
# Shown numbers, shown again

The text of a positive number is read as a decimal number with few digits, of which there are three
kinds: a whole number below ten thousand million, three digits for what is very large or very small,
and eight digits for the rest (`IsShowable`, `exists_showable`).

The number nearest to such a decimal number is shown by a text that is read as the same decimal
number, though perhaps by another one than before (`unsigned?_fraction_of_roundsTo`).  The nearest
number differs from the decimal number by less than one part in `2 ^ 52`, and so rounding it to the
few digits leads back to them (`Decimal.ofFraction_eq`).  It also falls under the same kind: a whole
number is a number exactly, what is not whole does not become whole, and the bounds between the
kinds are numbers, past which rounding does not move.
-/

namespace DeskCalculator

namespace Display

open Binary64 Decimal Numeral

/-! ### What the text is read as -/

section

variable {num den : ℕ} {v : ℚ}

lemma unsigned?_fraction_natCast (hden : 0 < den) {n : ℕ} (hv : (num : ℚ) / den = n)
    (hn : n < 10 ^ 10) : unsigned? (fraction num den) = some ⟨n, 0⟩ := by
  rw [fraction_natCast hden hv hn, unsigned?_digits (allDigits_toDigits n) Nat.toDigits_ne_nil,
    Nat.ofDigitChars_ten_toDigits]

/-- Whole numbers are neither very small nor, unless they are large, very large. -/
lemma le_of_extreme (hpos : 0 < v) (h : 10 ^ 10 ≤ v ∨ v < leastOrdinary) (n : ℕ) (hn : v = n) :
    10 ^ 10 ≤ n := by
  rw [hn] at hpos h
  rcases h with h | h
  · exact_mod_cast h
  · have hone : (1 : ℚ) ≤ n := by exact_mod_cast (Nat.cast_pos.1 hpos : 0 < n)
    rw [leastOrdinary_eq] at h
    norm_num [smallBelow] at h
    linarith

lemma unsigned?_fraction_extreme (hnum : 0 < num) (hden : 0 < den) (hv : (num : ℚ) / den = v)
    (h : 10 ^ 10 ≤ v ∨ v < leastOrdinary) :
    unsigned? (fraction num den) = some (ofFraction 3 num den) := by
  have hpos : 0 < v := hv ▸ div_pos (Nat.cast_pos.2 hnum) (Nat.cast_pos.2 hden)
  rw [fraction_of_extreme hden hv (le_of_extreme hpos h) h]
  exact (isScientific_scientific (by norm_num) (isRounded_ofFraction (by norm_num) hnum hden)).reads

lemma unsigned?_fraction_ordinary (hnum : 0 < num) (hden : 0 < den) (hv : (num : ℚ) / den = v)
    (hn : ∀ n : ℕ, v ≠ n) (hge : leastOrdinary ≤ v) (hlt : v < 10 ^ 10) :
    unsigned? (fraction num den) = some (ofFraction 8 num den) := by
  have hrounded := isRounded_ofFraction (k := 8) (by norm_num) hnum hden
  rw [fraction_of_ordinary hden hv (fun n hn' => absurd hn' (hn n)) hnum hge hlt]
  split
  · exact (isFixed_plain (by norm_num) hrounded (by omega)).reads
  · exact (isScientific_scientific (by norm_num) hrounded).reads

end

/-! ### The numbers that can be shown -/

/-- The decimal number `r` is what the display can show of some positive number. -/
inductive IsShowable (r : ℚ) : Prop where
  | whole {n : ℕ} (hn : n < 10 ^ 10) (hr : r = n)
  | extreme {d : Decimal} (hle : 10 ^ 2 ≤ d.coefficient) (hlt : d.coefficient < 10 ^ 3)
      (hr : r = d.toRat) (h : 10 ^ 10 ≤ r ∨ r < 10 ^ (-7 : ℤ))
  | ordinary {d : Decimal} (hle : 10 ^ 7 ≤ d.coefficient) (hlt : d.coefficient < 10 ^ 8)
      (hr : r = d.toRat) (hge : 10 ^ (-7 : ℤ) ≤ r) (hbelow : r < 10 ^ 10)

lemma leastOrdinary_lt : leastOrdinary < 10 ^ (-7 : ℤ) := by
  rw [leastOrdinary_eq]
  norm_num [smallBelow]

/-- Three digits are written only beyond the bounds.  What is rounded up to the lower bound has eight
digits as well. -/
lemma isShowable_of_extreme {v : ℚ} {d : Decimal} (h : IsRounded 3 v d)
    (hv : 10 ^ 10 ≤ v ∨ v < leastOrdinary) : IsShowable d.toRat := by
  rcases hv with hlarge | hsmall
  · exact .extreme h.le h.lt rfl (Or.inl (h.le_toRat_of_le (j := 10) hlarge))
  rcases (h.toRat_le (hsmall.trans leastOrdinary_lt).le).lt_or_eq with hlt | heq
  · exact .extreme h.le h.lt rfl (Or.inr hlt)
  · refine .ordinary (d := ⟨10 ^ 7, -14⟩) le_rfl (by norm_num) ?_ heq.ge ?_
    · rw [heq, toRat]
      norm_num
    · rw [heq]
      norm_num

/-- Eight digits are written only between the bounds.  What is rounded up to the upper bound has
three digits as well, and the lower bound is reached, since the number nearest to it rounds to
it. -/
lemma isShowable_of_ordinary {v : ℚ} {d : Decimal} (h : IsRounded 8 v d) (hge : leastOrdinary ≤ v)
    (hlt : v < 10 ^ 10) : IsShowable d.toRat := by
  rcases (h.toRat_le (j := 10) hlt.le).lt_or_eq with hbelow | heq
  · refine .ordinary h.le h.lt rfl (h.le_toRat (lt_of_lt_of_le ?_ hge)) hbelow
    rw [leastOrdinary_eq]
    norm_num [smallBelow]
  · refine .extreme (d := ⟨10 ^ 2, 8⟩) le_rfl (by norm_num) ?_ (Or.inl heq.ge)
    rw [heq, toRat]
    norm_num

/-- What is read from the display can be shown, and no power of ten stands between it and the
number that is displayed. -/
lemma exists_showable {num den : ℕ} {v : ℚ} (hnum : 0 < num) (hden : 0 < den)
    (hv : (num : ℚ) / den = v) :
    ∃ d, unsigned? (fraction num den) = some d ∧ IsShowable d.toRat ∧
      (∀ j : ℤ, 10 ^ j ≤ v → 10 ^ j ≤ d.toRat) ∧ ∀ j : ℤ, v ≤ 10 ^ j → d.toRat ≤ 10 ^ j := by
  by_cases hextreme : 10 ^ 10 ≤ v ∨ v < leastOrdinary
  · have hrounded := isRounded_ofFraction (k := 3) (by norm_num) hnum hden
    rw [hv] at hrounded
    exact ⟨_, unsigned?_fraction_extreme hnum hden hv hextreme,
      isShowable_of_extreme hrounded hextreme, fun _ => hrounded.le_toRat_of_le,
      fun _ => hrounded.toRat_le⟩
  rw [not_or, not_le, not_lt] at hextreme
  obtain ⟨hlt, hge⟩ := hextreme
  by_cases hwhole : ∃ n : ℕ, v = n
  · obtain ⟨n, hn⟩ := hwhole
    have hrat : (⟨n, 0⟩ : Decimal).toRat = v := by rw [toRat, zpow_zero, mul_one, hn]
    have hn' : n < 10 ^ 10 := by
      rw [hn] at hlt
      exact_mod_cast hlt
    refine ⟨_, unsigned?_fraction_natCast hden (hv.trans hn) hn', ?_⟩
    rw [hrat]
    exact ⟨.whole hn' hn, fun _ => id, fun _ => id⟩
  · have hrounded := isRounded_ofFraction (k := 8) (by norm_num) hnum hden
    rw [hv] at hrounded
    exact ⟨_, unsigned?_fraction_ordinary hnum hden hv (not_exists.1 hwhole) hge hlt,
      isShowable_of_ordinary hrounded hge hlt, fun _ => hrounded.le_toRat_of_le,
      fun _ => hrounded.toRat_le⟩

/-! ### Showing them again -/

/-- A decimal number from which a natural number is less than a unit of the last digit away is a
natural number itself. -/
lemma exists_natCast_of_abs_sub_lt {d : Decimal} {n : ℕ} (h : |n - d.toRat| < 10 ^ d.exponent) :
    ∃ k : ℕ, d.toRat = k := by
  have hp : (0 : ℚ) < 10 ^ d.exponent := zpow_pos (by norm_num) _
  obtain ⟨e, he | he⟩ := d.exponent.eq_nat_or_neg
  · refine ⟨d.coefficient * 10 ^ e, ?_⟩
    rw [toRat, he, zpow_natCast, Nat.cast_mul, Nat.cast_pow, Nat.cast_ofNat]
  · have hone : (10 : ℚ) ^ e * 10 ^ d.exponent = 1 := by
      rw [he, zpow_neg, zpow_natCast, mul_inv_cancel₀ (by positivity)]
    -- in units of the last digit both are integers
    have hunits : |((n * 10 ^ e : ℕ) : ℤ) - (d.coefficient : ℤ)| < 1 := by
      have hsub : (n : ℚ) - d.toRat = (n * 10 ^ e - d.coefficient) * 10 ^ d.exponent := by
        rw [sub_mul, mul_assoc, hone, mul_one, toRat]
      rw [hsub, abs_mul, abs_of_pos hp] at h
      have hlt := lt_of_mul_lt_mul_right (h.trans_le (one_mul _).ge) hp.le
      exact_mod_cast hlt
    have heq : n * 10 ^ e = d.coefficient := by
      have := Int.abs_lt_one_iff.1 hunits
      omega
    refine ⟨n, ?_⟩
    rw [toRat, ← heq, Nat.cast_mul, Nat.cast_pow, Nat.cast_ofNat, mul_assoc, hone, mul_one]

section

variable {m : ℕ} {q : ℤ} {r : ℚ}

/-- Rounding to a number is finer than the last of eight digits. -/
lemma abs_sub_lt_of_roundsTo {d : Decimal} (hm : 2 ^ 52 ≤ m) (h : RoundsTo m q d.toRat)
    (hlt : d.coefficient < 10 ^ 8) : |m * 2 ^ q - d.toRat| < 10 ^ d.exponent / 20 := by
  have hp : (0 : ℚ) < 10 ^ d.exponent := zpow_pos (by norm_num) _
  have hc : d.toRat < 10 ^ 8 * 10 ^ d.exponent :=
    mul_lt_mul_of_pos_right (by exact_mod_cast hlt) hp
  have herror := h.abs_sub_le hm
  linarith

/-- Three digits leave room below the lower bound. -/
lemma lt_leastOrdinary_of_roundsTo {d : Decimal} (hm : 2 ^ 52 ≤ m) (h : RoundsTo m q d.toRat)
    (hle : 10 ^ 2 ≤ d.coefficient) (hlt : d.coefficient < 10 ^ 3)
    (hsmall : d.toRat < 10 ^ (-7 : ℤ)) : m * 2 ^ q < leastOrdinary := by
  have hroom := toRat_le_of_toRat_lt hle hlt hsmall
  have herror := (abs_le.1 (h.abs_sub_le hm)).2
  rw [leastOrdinary_eq]
  norm_num [smallBelow] at hroom ⊢
  linarith

/-- What is not whole does not become whole. -/
lemma ne_natCast_of_roundsTo {d : Decimal} (hm : 2 ^ 52 ≤ m) (h : RoundsTo m q d.toRat)
    (hlt : d.coefficient < 10 ^ 8) (hwhole : ∀ n : ℕ, d.toRat ≠ n) (n : ℕ) :
    (m : ℚ) * 2 ^ q ≠ n := by
  intro hn
  have hp : (0 : ℚ) < 10 ^ d.exponent := zpow_pos (by norm_num) _
  have hclose := abs_sub_lt_of_roundsTo hm h hlt
  rw [hn] at hclose
  obtain ⟨k, hk⟩ := exists_natCast_of_abs_sub_lt (hclose.trans (by linarith))
  exact hwhole k hk

lemma unsigned?_fraction_of_roundsTo_natCast (hmq : IsSignificand m q) (h : RoundsTo m q r) {n : ℕ}
    (hn : n < 10 ^ 10) (hr : r = n) :
    ∃ d, unsigned? (fraction (m * 2 ^ q.toNat) (2 ^ (-q).toNat)) = some d ∧ d.toRat = r := by
  have hle : n ≤ exactBound := by
    change n ≤ 2 ^ 53
    omega
  have hvalue : (m : ℚ) * 2 ^ q = n := by
    rw [hr] at h
    exact h.eq_of_representable hmq n.cast_nonneg (representable_natCast hle)
  refine ⟨_, unsigned?_fraction_natCast (by positivity) ((ratio_magnitude m q).trans hvalue) hn, ?_⟩
  rw [toRat, zpow_zero, mul_one, hr]

/-- **The digits that are shown are found again.**  The number nearest to a decimal number that can
be shown is shown by a text that is read as the same decimal number. -/
lemma unsigned?_fraction_of_roundsTo (hr : IsShowable r) (hm : 2 ^ 52 ≤ m) (hmq : IsSignificand m q)
    (h : RoundsTo m q r) :
    ∃ d, unsigned? (fraction (m * 2 ^ q.toNat) (2 ^ (-q).toNat)) = some d ∧ d.toRat = r := by
  have hm' : 0 < m := lt_of_lt_of_le (by norm_num) hm
  have hnum : 0 < m * 2 ^ q.toNat := by positivity
  have hden : 0 < 2 ^ (-q).toNat := by positivity
  have hv := ratio_magnitude m q
  have hbound : Representable (10 ^ 10 : ℚ) := by
    exact_mod_cast representable_natCast (n := 10 ^ 10) (by decide)
  cases hr with
  | whole hn hr => exact unsigned?_fraction_of_roundsTo_natCast hmq h hn hr
  | @extreme d hle hlt hr hextreme =>
    subst hr
    have hclose := abs_sub_lt_of_roundsTo hm h (hlt.trans (by norm_num))
    have hextreme' : (10 : ℚ) ^ 10 ≤ m * 2 ^ q ∨ (m : ℚ) * 2 ^ q < leastOrdinary :=
      hextreme.imp (h.le_of_le hmq hbound) (lt_leastOrdinary_of_roundsTo hm h hle hlt)
    rw [← hv] at hclose
    refine ⟨d, ?_, rfl⟩
    rw [unsigned?_fraction_extreme hnum hden hv hextreme', ofFraction_eq hnum hden hle hlt hclose]
  | @ordinary d hle hlt hr hge hbelow =>
    subst hr
    by_cases hwhole : ∃ n : ℕ, d.toRat = n
    · obtain ⟨n, hn⟩ := hwhole
      rw [hn] at hbelow
      exact unsigned?_fraction_of_roundsTo_natCast hmq h (by exact_mod_cast hbelow) hn
    · have hn := ne_natCast_of_roundsTo hm h hlt (not_exists.1 hwhole)
      have hge' := h.le_of_le hmq denotes_leastOrdinary.representable
        (leastOrdinary_lt.le.trans hge)
      have hlt' : (m : ℚ) * 2 ^ q < 10 ^ 10 :=
        lt_of_le_of_ne (h.le_of_ge hmq (h.pos hm').le hbound hbelow.le)
          (by exact_mod_cast hn (10 ^ 10))
      have hclose := abs_sub_lt_of_roundsTo hm h hlt
      rw [← hv] at hclose
      refine ⟨d, ?_, rfl⟩
      rw [unsigned?_fraction_ordinary hnum hden hv hn hge' hlt',
        ofFraction_eq hnum hden hle hlt hclose]

end

end Display

/-! ### Numerals with a sign -/

namespace Numeral

open Binary64 Decimal

/-- The rational number that a numeral is written for. -/
def rational? (t : Text) : Option ℚ :=
  match ofText? t with
  | some (.decimal negative d) => some ((if negative then -1 else 1) * d.toRat)
  | _ => none

section

variable {t : Text} {negative : Bool} {d : Decimal} {m : ℕ} {q : ℤ}

lemma rational?_of_ofText? (h : ofText? t = some (.decimal negative d)) :
    rational? t = some ((if negative then -1 else 1) * d.toRat) := by
  rw [rational?, h]

lemma ofFloat_value (hm : 0 < m) (hmq : IsSignificand m q) (h : RoundsTo m q d.toRat) :
    ofFloat (value (.decimal negative d)) = .finite negative m q := by
  cases negative
  · exact Decimal.ofFloat_value hm hmq h
  · exact ofFloat_neg (Decimal.ofFloat_value hm hmq h)

/-- **Reading rounds to the nearest number.** -/
lemma isNearestTo_value (hm : 0 < m) (hmq : IsSignificand m q) (h : RoundsTo m q d.toRat) :
    IsNearestTo (value (.decimal negative d)) ((if negative then -1 else 1) * d.toRat) := by
  have hpos := h.pos hm
  refine isNearestTo_of_roundsTo hm (ofFloat_value hm hmq h) ?_ (sign_mul_neg_iff negative hpos)
  rwa [abs_sign_mul, abs_of_pos hpos]

end

end Numeral

namespace Display

open Binary64 Decimal Numeral

lemma ofText?_signed_fraction (negative : Bool) (num den : ℕ) :
    ofText? (signed negative (fraction num den)) =
      (unsigned? (fraction num den)).map (.decimal negative) := by
  obtain ⟨c, t, hct⟩ := List.exists_cons_of_ne_nil (fraction_ne_nil num den)
  have hc := isPart_head_fraction hct
  rw [hct]
  cases negative
  · exact ofText?_of_isPart hc t
  · exact ofText?_minus hc t

section

variable {x : Float} {negative : Bool} {m : ℕ} {q : ℤ}

/-- A zero of either sign is shown without a sign, and it is read as the zero that has none. -/
lemma numeral_text_of_zero (h : ofFloat x = .finite negative 0 q) :
    rational? (text x) = some 0 ∧ read? (text x) = some (nearest 0 1) := by
  have hread : ofText? ['0'] = some (.decimal false ⟨0, 0⟩) := by decide
  rw [text_zero h]
  refine ⟨?_, rfl⟩
  rw [rational?_of_ofText? hread, toRat, Nat.cast_zero, zero_mul, mul_zero]

/-- What is read from the display of a number that is not zero. -/
lemma exists_ofText?_text (h : ofFloat x = .finite negative m q) (hm : 0 < m) :
    ∃ d, ofText? (text x) = some (.decimal negative d) ∧ IsShowable d.toRat ∧
      (∀ j : ℤ, 10 ^ j ≤ (m : ℚ) * 2 ^ q → 10 ^ j ≤ d.toRat) ∧
      ∀ j : ℤ, (m : ℚ) * 2 ^ q ≤ 10 ^ j → d.toRat ≤ 10 ^ j := by
  obtain ⟨d, hread, hd⟩ := exists_showable (by positivity) (by positivity) (ratio_magnitude m q)
  exact ⟨d, by rw [text_eq h hm, ofText?_signed_fraction, hread, Option.map_some], hd⟩

/-- **A number that is nearest to what can be shown reads back**, and it is shown as the same
rational number. -/
lemma numeral_text_of_roundsTo {r : ℚ} (h : ofFloat x = .finite negative m q) (hm : 2 ^ 52 ≤ m)
    (hr : IsShowable r) (hround : RoundsTo m q r) :
    rational? (text x) = some ((if negative then -1 else 1) * r) ∧ read? (text x) = some x := by
  have hm' : 0 < m := lt_of_lt_of_le (by norm_num) hm
  have hmq := isSignificand_of_ofFloat h
  obtain ⟨d, hread, rfl⟩ := unsigned?_fraction_of_roundsTo hr hm hmq hround
  have htext : ofText? (text x) = some (.decimal negative d) := by
    rw [text_eq h hm', ofText?_signed_fraction, hread, Option.map_some]
  refine ⟨rational?_of_ofText? htext, ?_⟩
  rw [read?, htext, Option.map_some, eq_of_parts (Numeral.ofFloat_value hm' hmq hround) h]

end

end Display

end DeskCalculator
