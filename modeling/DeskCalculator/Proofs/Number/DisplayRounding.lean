import DeskCalculator.Proofs.Number.Exact
import DeskCalculator.Proofs.Number.SignificantDigits

/-!
# The display rounds correctly

What the display shows for a finite number, against its exact value: integers below ten thousand
million digit by digit (`fraction_natCast`), and every other number rounded to as many digits as its
size asks for (`ShowsRounded`, `fraction_rounded`).  The sign is put in front of what is shown for
the magnitude (`text_eq`).
-/

namespace DeskCalculator

namespace Display

open Binary64 Decimal

/-! ## Magnitudes -/

section

variable {num den : ℕ}

lemma fraction_natCast (hden : 0 < den) {n : ℕ} (hv : (num : ℚ) / den = n) (hn : n < 10 ^ 10) :
    fraction num den = Nat.toDigits 10 n := by
  obtain rfl : num = n * den := by
    rw [div_eq_iff (Nat.cast_pos.2 hden).ne'] at hv
    exact_mod_cast hv
  have hlt : n * den < largeFrom * den := Nat.mul_lt_mul_of_pos_right hn hden
  rw [fraction, if_pos ⟨Nat.mul_mod_left n den, hlt⟩, Nat.mul_div_cancel n hden]

/-- The bound below which a number is very small: the number nearest to `10 ^ (-7)`. -/
def leastOrdinary : ℚ := (ofFloat (nearest 1 (10 ^ 7))).exactValue

lemma ofFloat_leastOrdinary : ofFloat (nearest 1 (10 ^ 7)) = .finite false smallBelow.1 (-76) := by
  decide +kernel

lemma denotes_leastOrdinary : Denotes (nearest 1 (10 ^ 7)) leastOrdinary :=
  ⟨⟨_, _, _, ofFloat_leastOrdinary⟩, rfl⟩

lemma leastOrdinary_eq : leastOrdinary = smallBelow.1 / smallBelow.2 := by
  rw [leastOrdinary, ofFloat_leastOrdinary, exactValue]
  norm_num [smallBelow]

/-- The text `t` shows the positive number `v`, rounded to the decimal number `d`: with three
significant digits in scientific form if `v` is very large or very small, and otherwise with eight,
written in full if the exponent of the first of them lies between `-4` and `7`. -/
structure ShowsRounded (v : ℚ) (d : Decimal) (t : Text) : Prop where
  /-- At most half a unit of the last digit is lost. -/
  error : |d.toRat - v| ≤ 10 ^ d.exponent / 2
  extreme : 10 ^ 10 ≤ v ∨ v < leastOrdinary → IsScientific 3 d t
  fixed : leastOrdinary ≤ v → v < 10 ^ 10 → -4 ≤ d.exponent + 7 ∧ d.exponent + 7 ≤ 7 →
    IsFixed 8 d t
  scientific : leastOrdinary ≤ v → v < 10 ^ 10 → ¬(-4 ≤ d.exponent + 7 ∧ d.exponent + 7 ≤ 7) →
    IsScientific 8 d t

/-! ### The branches of the display -/

section

variable {v : ℚ} (hden : 0 < den) (hv : (num : ℚ) / den = v) (hn : ∀ n : ℕ, v = n → 10 ^ 10 ≤ n)

include hden hv

lemma largeFrom_le_iff : largeFrom * den ≤ num ↔ 10 ^ 10 ≤ v := by
  rw [← hv, le_div_iff₀ (Nat.cast_pos.2 hden), show largeFrom = 10 ^ 10 from rfl]
  exact_mod_cast Iff.rfl

lemma lt_smallBelow_iff : num * smallBelow.2 < smallBelow.1 * den ↔ v < leastOrdinary := by
  rw [← hv, leastOrdinary_eq, div_lt_div_iff₀ (Nat.cast_pos.2 hden) (by norm_num [smallBelow])]
  exact_mod_cast Iff.rfl

include hn

lemma not_whole : ¬(num % den = 0 ∧ num < largeFrom * den) := by
  rintro ⟨hdvd, hlt⟩
  have hcast : v = (num / den : ℕ) := by
    rw [← hv, Nat.cast_div (Nat.dvd_of_mod_eq_zero hdvd) (Nat.cast_pos.2 hden).ne']
  exact absurd hlt (not_lt.2 ((Nat.le_div_iff_mul_le hden).1 (hn _ hcast)))

lemma fraction_of_extreme (h : 10 ^ 10 ≤ v ∨ v < leastOrdinary) :
    fraction num den = (ofFraction 3 num den).scientific := by
  rw [← largeFrom_le_iff hden hv, ← lt_smallBelow_iff hden hv] at h
  rw [fraction, if_neg (not_whole hden hv hn), if_pos h]
  rfl

lemma fraction_of_ordinary (hnum : 0 < num) (hge : leastOrdinary ≤ v) (hlt : v < 10 ^ 10) :
    fraction num den =
      if -4 ≤ (ofFraction 8 num den).exponent + 7 ∧ (ofFraction 8 num den).exponent + 7 ≤ 7 then
        (ofFraction 8 num den).plain
      else (ofFraction 8 num den).scientific := by
  have hordinary : ¬(largeFrom * den ≤ num ∨ num * smallBelow.2 < smallBelow.1 * den) := by
    rw [largeFrom_le_iff hden hv, lt_smallBelow_iff hden hv]
    exact not_or.2 ⟨not_le.2 hlt, not_lt.2 hge⟩
  rw [fraction, if_neg (not_whole hden hv hn), if_neg hordinary]
  have hfirst : (ofFraction ordinaryDigits num den).firstExponent =
      (ofFraction 8 num den).exponent + 7 :=
    (isRounded_ofFraction (k := 8) (by norm_num) hnum hden).firstExponent_eq (by norm_num)
  dsimp only
  rw [hfirst]
  exact if_congr (and_congr_right fun _ => Int.lt_add_one_iff (b := 7)) rfl rfl

end

/-- What is shown for a fraction that is not a small integer. -/
lemma fraction_rounded (hnum : 0 < num) (hden : 0 < den) {v : ℚ} (hv : (num : ℚ) / den = v)
    (hn : ∀ n : ℕ, v = n → 10 ^ 10 ≤ n) : ∃ d, ShowsRounded v d (fraction num den) := by
  by_cases hextreme : 10 ^ 10 ≤ v ∨ v < leastOrdinary
  · have hrounded := isRounded_ofFraction (k := 3) (by norm_num) hnum hden
    rw [hv] at hrounded
    have hordinary : leastOrdinary ≤ v → ¬v < 10 ^ 10 := fun hge hlt =>
      hextreme.elim (not_le.2 hlt) (not_lt.2 hge)
    rw [fraction_of_extreme hden hv hn hextreme]
    exact ⟨_, hrounded.abs_sub_le, fun _ => isScientific_scientific (by norm_num) hrounded,
      fun hge hlt => absurd hlt (hordinary hge), fun hge hlt => absurd hlt (hordinary hge)⟩
  · have hrounded := isRounded_ofFraction (k := 8) (by norm_num) hnum hden
    rw [hv] at hrounded
    rw [not_or, not_le, not_lt] at hextreme
    rw [fraction_of_ordinary hden hv hn hnum hextreme.2 hextreme.1]
    refine ⟨_, hrounded.abs_sub_le, fun h => ?_, fun _ _ h => ?_, fun _ _ h => ?_⟩
    · exact absurd h (not_or.2 ⟨not_le.2 hextreme.1, not_lt.2 hextreme.2⟩)
    · rw [if_pos h]
      exact isFixed_plain (by norm_num) hrounded (by omega)
    · rw [if_neg h]
      exact isScientific_scientific (by norm_num) hrounded

end

/-! ## Signs -/

/-- A text with a minus in front of it if the number is negative. -/
def signed (negative : Bool) (t : Text) : Text := (if negative then ['-'] else []) ++ t

section

variable {x : Float} {negative : Bool} {m : ℕ} {q : ℤ}

lemma text_zero (h : ofFloat x = .finite negative 0 q) : text x = ['0'] := by
  rw [text, h]
  exact if_pos rfl

lemma text_eq (h : ofFloat x = .finite negative m q) (hm : 0 < m) :
    text x = signed negative (fraction (m * 2 ^ q.toNat) (2 ^ (-q).toNat)) := by
  rw [text, h]
  exact if_neg hm.ne'

lemma ratio_magnitude (m : ℕ) (q : ℤ) :
    ((m * 2 ^ q.toNat : ℕ) : ℚ) / (2 ^ (-q).toNat : ℕ) = m * 2 ^ q := by
  rw [ratio_raised_one m two_ne_zero q, Nat.cast_ofNat]

end

lemma toList_toString (n : ℤ) :
    (toString n).toList = signed (decide (n < 0)) (Nat.toDigits 10 n.natAbs) := by
  rcases n with n | n
  · rw [decide_eq_false (show ¬Int.ofNat n < 0 from Int.not_lt.2 (Int.natCast_nonneg n))]
    exact Nat.toList_repr
  · rw [decide_eq_true (Int.negSucc_lt_zero n)]
    change ("-" ++ Nat.repr (n + 1)).toList = '-' :: Nat.toDigits 10 (n + 1)
    rw [String.toList_append, Nat.toList_repr]
    rfl

/-- Integers that are not too large are shown digit by digit. -/
lemma text_of_denotes {x : Float} {n : ℤ} (hx : Denotes x n) (hn : |n| < 10 ^ 10) :
    text x = (toString n).toList := by
  obtain ⟨⟨negative, m, q, hparts⟩, hv⟩ := hx
  rw [hparts] at hv
  rcases Nat.eq_zero_or_pos m with rfl | hm
  · have hzero : n = 0 := by
      rw [exactValue_zero] at hv
      exact_mod_cast hv.symm
    rw [text_zero hparts, hzero]
    rfl
  · have hmagnitude : ((m * 2 ^ q.toNat : ℕ) : ℚ) / (2 ^ (-q).toNat : ℕ) = n.natAbs := by
      rw [ratio_magnitude, ← abs_exactValue negative, hv, Nat.cast_natAbs, Int.cast_abs]
    have hsign : decide (n < 0) = negative := by
      have hneg := exactValue_neg_iff negative hm q
      rw [hv, Int.cast_lt_zero] at hneg
      cases negative <;> simpa using hneg
    rw [Int.abs_eq_natAbs] at hn
    rw [text_eq hparts hm, fraction_natCast (by positivity) hmagnitude (by omega), toList_toString,
      hsign]

/-- **The display rounds correctly.**  Let `v` be the exact value of a finite number.  An integer
below `10 ^ 10` is shown as its decimal text.  Of every other number the magnitude is shown, rounded
as `ShowsRounded` says, behind a minus if the number is negative.  The opposite of a positive number
is shown like the number, behind a minus. -/
theorem text_rounded {x : Float} {v : ℚ} (hx : x.isFinite = true)
    (hv : (ofFloat x).exactValue = v) :
    (∀ n : ℤ, v = n → |n| < 10 ^ 10 → text x = (toString n).toList) ∧
    ((∀ n : ℤ, v = n → 10 ^ 10 ≤ |n|) → ∃ (t : Text) (d : Decimal),
      text x = (if v < 0 then ['-'] else []) ++ t ∧ ShowsRounded |v| d t) ∧
    (0 < v → text (-x) = '-' :: text x) := by
  obtain ⟨negative, m, q, hparts⟩ := exists_ofFloat_of_isFinite hx
  rw [hparts] at hv
  refine ⟨fun n hn hlt => ?_, fun hn => ?_, fun hpos => ?_⟩
  · exact text_of_denotes ⟨⟨_, _, _, hparts⟩, by rw [hparts, hv, hn]⟩ hlt
  · have hm : 0 < m := by
      refine pos_of_exactValue_ne_zero hv fun hzero => ?_
      exact absurd (hn 0 (by rw [hzero, Int.cast_zero])) (by norm_num)
    have hmagnitude : ((m * 2 ^ q.toNat : ℕ) : ℚ) / (2 ^ (-q).toNat : ℕ) = |v| := by
      rw [ratio_magnitude, ← hv, abs_exactValue]
    obtain ⟨d, hd⟩ :=
      fraction_rounded (by positivity) (by positivity) hmagnitude fun n hn' => by
        rcases abs_choice v with habs | habs
        · exact_mod_cast hn n (by rw [← habs, hn', Int.cast_natCast])
        · have hle := hn (-n) (by rw [← neg_neg v, ← habs, hn', Int.cast_neg, Int.cast_natCast])
          rw [abs_neg] at hle
          exact_mod_cast hle
    refine ⟨_, d, ?_, hd⟩
    rw [text_eq hparts hm, ← hv, signed]
    simp only [exactValue_neg_iff negative hm q]
  · have hm : 0 < m := pos_of_exactValue_ne_zero hv hpos.ne'
    have hsign : negative = false := by
      have hneg := exactValue_neg_iff negative hm q
      rw [hv] at hneg
      exact Bool.eq_false_iff.2 fun h => absurd (hneg.2 h) hpos.le.not_gt
    rw [text_eq (ofFloat_neg hparts) hm, text_eq hparts hm, hsign]
    rfl

/-- The number nearest to `10 ^ (-8)` is very small, and it is no integer. -/
theorem text_of_small :
    (nearest 1 (10 ^ 8)).isFinite = true ∧
      ∃ d : Decimal, |d.toRat - (ofFloat (nearest 1 (10 ^ 8))).exactValue| ≤ 10 ^ d.exponent / 2 ∧
        IsScientific 3 d (text (nearest 1 (10 ^ 8))) := by
  have hfinite : (nearest 1 (10 ^ 8)).isFinite = true := by decide +kernel
  have hparts : ofFloat (nearest 1 (10 ^ 8)) = .finite false 6044629098073146 (-79) := by
    decide +kernel
  have hv : (ofFloat (nearest 1 (10 ^ 8))).exactValue = 6044629098073146 / 2 ^ 79 := by
    rw [hparts, exactValue]
    norm_num
  have hpos : 0 < (ofFloat (nearest 1 (10 ^ 8))).exactValue := by rw [hv]; norm_num
  have hsmall : (ofFloat (nearest 1 (10 ^ 8))).exactValue < leastOrdinary := by
    rw [hv, leastOrdinary_eq]
    norm_num [smallBelow]
  have hinteger : ∀ n : ℤ, (ofFloat (nearest 1 (10 ^ 8))).exactValue = n → 10 ^ 10 ≤ |n| := by
    intro n hn
    rw [hn] at hpos hv
    have hone : n < 1 := by
      have hlt : (n : ℚ) < 1 := by rw [hv]; norm_num
      exact_mod_cast hlt
    exact absurd (Int.cast_pos.1 hpos) (by omega)
  obtain ⟨t, d, htext, hd⟩ := (text_rounded hfinite rfl).2.1 hinteger
  rw [if_neg hpos.le.not_gt, List.nil_append] at htext
  rw [abs_of_pos hpos] at hd
  exact ⟨hfinite, d, hd.error, htext ▸ hd.extreme (Or.inr hsmall)⟩

end Display

end DeskCalculator
