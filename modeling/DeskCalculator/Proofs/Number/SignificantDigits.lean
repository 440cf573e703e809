import DeskCalculator.Proofs.Number.ReadBack

/-!
# Significant digits

`Decimal.ofFraction` rounds a fraction to a number of significant digits.  It has exactly that many
digits, also when rounding carries to one digit more, and it is the multiple of the power of ten of
its last digit that is nearest to the fraction (`Decimal.isRounded_ofFraction`).  A number that has
no more digits is found again from whatever is close to it (`Decimal.ofFraction_eq`), and no
rounding goes past a power of ten (`Decimal.IsRounded.le_toRat`, `Decimal.IsRounded.toRat_le`).

Written in scientific form, or in full, such a number shows its digits and nothing but zeros in
front of them (`isScientific_scientific`, `isFixed_plain`), and the text reads as the number.
-/

namespace DeskCalculator

namespace Decimal

/-! ## Rounding to significant digits -/

/-- The decimal number has `k` digits, and it is the nearest one to `v` that ends at its exponent;
a half goes to the even neighbour. -/
structure IsRounded (k : ℕ) (v : ℚ) (d : Decimal) : Prop where
  le : 10 ^ (k - 1) ≤ d.coefficient
  lt : d.coefficient < 10 ^ k
  nearest : IsNearest d.coefficient (v / 10 ^ d.exponent)

/-- It is at most half a unit of its last digit away. -/
lemma IsRounded.abs_sub_le {k : ℕ} {v : ℚ} {d : Decimal} (h : IsRounded k v d) :
    |d.toRat - v| ≤ 10 ^ d.exponent / 2 := by
  have hp : (0 : ℚ) < 10 ^ d.exponent := zpow_pos (by norm_num) _
  have hle := h.nearest.le
  have hge := h.nearest.ge
  rw [le_div_iff₀ hp] at hle
  rw [div_le_iff₀ hp] at hge
  rw [toRat, abs_le]
  constructor <;> linarith

/-- Of the two candidates around a fraction below a power of ten, the power itself has to be cut
back by one digit. -/
lemma IsNearest.carried {k : ℕ} (hk : 1 ≤ k) {w : ℚ} (hlt : w < 10 ^ k)
    (h : IsNearest (10 ^ k) w) : IsNearest (10 ^ (k - 1)) (w / 10) := by
  have hpow : (10 : ℚ) ^ k = 10 * 10 ^ (k - 1) := by
    rw [← pow_succ', Nat.sub_add_cancel hk]
  have hle := h.le
  push_cast at hle
  rw [hpow] at hle hlt
  refine ⟨?_, ?_, ?_⟩
  · push_cast
    linarith
  · push_cast
    linarith
  · push_cast
    rintro (heq | heq) <;> linarith

/-- The digits of a fraction of which the scale and the nearest multiple are known. -/
lemma ofFraction_of_log {k num den c : ℕ} {e : ℤ} (hnum : 0 < num) (hden : 0 < den)
    (hlog : Int.log 10 ((num : ℚ) / den) = e + (k - 1 : ℕ))
    (hnearest : IsNearest c (num / den / 10 ^ e)) :
    ofFraction k num den = if c = 10 ^ k then ⟨10 ^ (k - 1), e + 1⟩ else ⟨c, e⟩ := by
  have hround : roundDiv (num * 10 ^ (-e).toNat) (den * 10 ^ e.toNat) = c := by
    refine roundDiv_eq (by positivity) ?_
    rw [ratio_scaled num den (by norm_num) e]
    exact_mod_cast hnearest
  rw [ofFraction, magnitude_eq_log hnum hden, hlog, add_sub_cancel_right, hround]

/-- **Rounding to significant digits.** -/
lemma isRounded_ofFraction {k num den : ℕ} (hk : 1 ≤ k) (hnum : 0 < num) (hden : 0 < den) :
    IsRounded k (num / den) (ofFraction k num den) := by
  have hv : (0 : ℚ) < num / den := div_pos (Nat.cast_pos.2 hnum) (Nat.cast_pos.2 hden)
  obtain ⟨e, hlog⟩ : ∃ e, Int.log 10 ((num : ℚ) / den) = e + (k - 1 : ℕ) :=
    ⟨_, (sub_add_cancel _ _).symm⟩
  -- the fraction in units of the last digit
  obtain ⟨hlow, hhigh⟩ := (log_eq_add_iff (by norm_num) hv).1 hlog
  rw [Nat.cast_ofNat] at hlow hhigh
  rw [Nat.sub_add_cancel hk] at hhigh
  obtain ⟨c, hnearest⟩ := exists_isNearest (v := (num : ℚ) / den / 10 ^ e) (by positivity)
  rw [ofFraction_of_log hnum hden hlog hnearest]
  have hclow : 10 ^ (k - 1) ≤ c := by
    have hlt : (10 : ℚ) ^ (k - 1) < c + 1 := by linarith [hnearest.ge]
    exact Nat.lt_succ_iff.1 (by exact_mod_cast hlt)
  have hchigh : c ≤ 10 ^ k := by
    have hlt : (c : ℚ) < 10 ^ k + 1 := by linarith [hnearest.le]
    exact Nat.lt_succ_iff.1 (by exact_mod_cast hlt)
  by_cases hc : c = 10 ^ k
  · rw [if_pos hc]
    refine ⟨le_rfl, Nat.pow_lt_pow_right (by norm_num) (by omega), ?_⟩
    rw [hc] at hnearest
    rw [zpow_add_one₀ (by norm_num), ← div_div]
    exact IsNearest.carried hk hhigh hnearest
  · rw [if_neg hc]
    exact ⟨hclow, lt_of_le_of_ne hchigh hc, hnearest⟩

/-! ### Numbers with few digits -/

/-- **A number with `k` digits is found again** from whatever is close to it: rounding to `k` digits
leads back to it, also from right below a power of ten, where it carries. -/
lemma ofFraction_eq {k num den : ℕ} {d : Decimal} (hnum : 0 < num) (hden : 0 < den)
    (hle : 10 ^ (k - 1) ≤ d.coefficient) (hlt : d.coefficient < 10 ^ k)
    (hclose : |num / den - d.toRat| < 10 ^ d.exponent / 20) : ofFraction k num den = d := by
  obtain ⟨c, e⟩ := d
  have hten : (10 : ℚ) ≠ 0 := by norm_num
  have hp : (0 : ℚ) < 10 ^ e := zpow_pos (by norm_num) e
  have hv : (0 : ℚ) < num / den := div_pos (Nat.cast_pos.2 hnum) (Nat.cast_pos.2 hden)
  have hk : k - 1 + 1 = k := Nat.sub_add_cancel
    (Nat.pos_of_ne_zero (by rintro rfl; exact absurd (hle.trans_lt hlt) (lt_irrefl _)))
  have hpow : (10 : ℚ) ^ k = 10 * 10 ^ (k - 1) := by rw [← pow_succ', hk]
  have hone : (1 : ℚ) ≤ 10 ^ (k - 1) := one_le_pow₀ (by norm_num)
  have hlog : ∀ i : ℤ, 10 ^ (k - 1) ≤ (num : ℚ) / den / 10 ^ i → (num : ℚ) / den / 10 ^ i < 10 ^ k →
      Int.log 10 ((num : ℚ) / den) = i + (k - 1 : ℕ) := fun i hge hlt =>
    (log_eq_add_iff (by norm_num) hv).2 (by rw [Nat.cast_ofNat, hk]; exact ⟨hge, hlt⟩)
  -- in units of the last digit
  have hunits : |(num : ℚ) / den / 10 ^ e - c| < 1 / 20 := by
    rw [toRat] at hclose
    rw [← mul_lt_mul_iff_left₀ hp, ← abs_of_pos hp, ← abs_mul, sub_mul, abs_of_pos hp,
      div_mul_cancel₀ _ hp.ne']
    linarith
  obtain ⟨hlow, hhigh⟩ := abs_lt.1 hunits
  rcases le_or_gt (10 ^ (k - 1)) ((num : ℚ) / den / 10 ^ e) with hge | hbelow
  · have hlt' : (c : ℚ) + 1 ≤ 10 ^ k := by exact_mod_cast hlt
    have hnearest := IsNearest.of_abs_lt (hunits.trans (by norm_num))
    rw [ofFraction_of_log hnum hden (hlog e hge (by linarith)) hnearest, if_neg hlt.ne]
  · -- right below the power of ten there is one digit more, and rounding carries
    have hc : c = 10 ^ (k - 1) := by
      refine le_antisymm (Nat.lt_succ_iff.1 ?_) hle
      have hlt' : (c : ℚ) < 10 ^ (k - 1) + 1 := by linarith
      exact_mod_cast hlt'
    have hprev : (num : ℚ) / den / 10 ^ (e - 1) = 10 * (num / den / 10 ^ e) := by
      rw [zpow_sub_one₀ hten]
      field_simp
    rw [hc] at hlow
    push_cast at hlow
    have hnearest : IsNearest (10 ^ k) (num / den / 10 ^ (e - 1)) := by
      refine IsNearest.of_abs_lt ?_
      rw [hprev, abs_lt]
      push_cast
      constructor <;> linarith
    rw [ofFraction_of_log hnum hden (hlog (e - 1) (by linarith) (by linarith)) hnearest,
      if_pos rfl, hc, sub_add_cancel]

section

variable {k : ℕ} {v : ℚ} {d : Decimal} {j : ℤ}

lemma exponent_le_of_toRat_lt (hle : 10 ^ (k - 1) ≤ d.coefficient) (h : d.toRat < 10 ^ j) :
    d.exponent ≤ j - k := by
  have hpow : (10 : ℚ) ^ ((k - 1 : ℕ) + d.exponent) < 10 ^ j := by
    refine lt_of_le_of_lt ?_ h
    rw [zpow_add₀ (by norm_num), zpow_natCast, toRat]
    exact mul_le_mul_of_nonneg_right (by exact_mod_cast hle) (by positivity)
  have := (zpow_lt_zpow_iff_right₀ (by norm_num : (1 : ℚ) < 10)).1 hpow
  omega

/-- A number with `k` digits is below a power of ten by a unit of its last digit at least. -/
lemma toRat_le_of_toRat_lt (hle : 10 ^ (k - 1) ≤ d.coefficient) (hlt : d.coefficient < 10 ^ k)
    (h : d.toRat < 10 ^ j) : d.toRat ≤ 10 ^ j - 10 ^ (j - k) := by
  have hone : (1 : ℚ) ≤ 10 ^ k := one_le_pow₀ (by norm_num)
  calc d.toRat ≤ (10 ^ k - 1) * 10 ^ d.exponent := by
        refine mul_le_mul_of_nonneg_right ?_ (by positivity)
        rw [le_sub_iff_add_le]
        exact_mod_cast hlt
    _ ≤ (10 ^ k - 1) * 10 ^ (j - k) :=
        mul_le_mul_of_nonneg_left
          (zpow_le_zpow_right₀ (by norm_num) (exponent_le_of_toRat_lt hle h)) (by linarith)
    _ = 10 ^ j - 10 ^ (j - k) := by
        rw [sub_one_mul, ← zpow_natCast, ← zpow_add₀ (by norm_num), add_sub_cancel]

/-- Rounding does not go down past a power of ten, nor does it stay below one that is less than half
a unit away. -/
lemma IsRounded.le_toRat (h : IsRounded k v d) (hv : 10 ^ j - 10 ^ (j - k) / 2 < v) :
    10 ^ j ≤ d.toRat := by
  by_contra hlt
  rw [not_le] at hlt
  have hunit : (10 : ℚ) ^ d.exponent ≤ 10 ^ (j - k) :=
    zpow_le_zpow_right₀ (by norm_num) (exponent_le_of_toRat_lt h.le hlt)
  linarith [(abs_le.1 h.abs_sub_le).1, toRat_le_of_toRat_lt h.le h.lt hlt]

lemma IsRounded.le_toRat_of_le (h : IsRounded k v d) (hv : 10 ^ j ≤ v) : 10 ^ j ≤ d.toRat := by
  have hunit : (0 : ℚ) < 10 ^ (j - k) := zpow_pos (by norm_num) _
  exact h.le_toRat (by linarith)

/-- Rounding does not go up past a power of ten. -/
lemma IsRounded.toRat_le (h : IsRounded k v d) (hv : v ≤ 10 ^ j) : d.toRat ≤ 10 ^ j := by
  have hten : (10 : ℚ) ≠ 0 := by norm_num
  have hp : (0 : ℚ) < 10 ^ d.exponent := zpow_pos (by norm_num) _
  have herror := (abs_le.1 h.abs_sub_le).2
  by_contra hlt
  rw [not_le] at hlt
  rcases le_or_gt d.exponent j with hle | hgt
  · -- the power is a multiple of the unit of the last digit
    obtain ⟨n, rfl⟩ := Int.exists_add_of_le hle
    rw [zpow_add₀ hten, zpow_natCast, mul_comm] at hv hlt
    have hc : 10 ^ n + 1 ≤ d.coefficient := by
      exact_mod_cast lt_of_mul_lt_mul_right hlt hp.le
    have hge : (10 ^ n + 1 : ℚ) * 10 ^ d.exponent ≤ d.toRat :=
      mul_le_mul_of_nonneg_right (by exact_mod_cast hc) hp.le
    linarith
  · -- the power is far below the unit of the last digit
    have hc : 1 ≤ d.coefficient := (Nat.one_le_pow _ _ (by norm_num)).trans h.le
    have hge : (1 : ℚ) * 10 ^ d.exponent ≤ d.toRat :=
      mul_le_mul_of_nonneg_right (by exact_mod_cast hc) hp.le
    have hfar : (10 : ℚ) ^ (j + 1) ≤ 10 ^ d.exponent := zpow_le_zpow_right₀ (by norm_num) hgt
    have hj : (0 : ℚ) < 10 ^ j := zpow_pos (by norm_num) _
    rw [zpow_add_one₀ hten] at hfar
    linarith

end

/-! ### The number of digits -/

lemma length_toDigits {k n : ℕ} (hk : 1 ≤ k) (hle : 10 ^ (k - 1) ≤ n) (hlt : n < 10 ^ k) :
    (Nat.toDigits 10 n).length = k := by
  have hlow := lt_pow_length_toDigits n
  have hhigh := pow_length_toDigits_le (lt_of_lt_of_le (by positivity) hle)
  have h₁ := (Nat.pow_lt_pow_iff_right (a := 10) (by norm_num)).1 (hle.trans_lt hlow)
  have h₂ := (Nat.pow_lt_pow_iff_right (a := 10) (by norm_num)).1 (hhigh.trans_lt hlt)
  omega

lemma IsRounded.length_toDigits {k : ℕ} (hk : 1 ≤ k) {v : ℚ} {d : Decimal} (h : IsRounded k v d) :
    (Nat.toDigits 10 d.coefficient).length = k :=
  Decimal.length_toDigits hk h.le h.lt

/-- The exponent of the first digit. -/
lemma IsRounded.firstExponent_eq {k : ℕ} (hk : 1 ≤ k) {v : ℚ} {d : Decimal}
    (h : IsRounded k v d) : d.firstExponent = d.exponent + (k - 1 : ℕ) := by
  rw [firstExponent, h.length_toDigits hk]

/-- The digits of a positive number do not start with a zero. -/
lemma head?_toDigits {n : ℕ} (hn : 0 < n) : ∀ c ∈ (Nat.toDigits 10 n).head?, c ≠ '0' := by
  induction n using Nat.strongRecOn with
  | _ n ih =>
    by_cases hlt : n < 10
    · rw [Nat.toDigits_of_lt_base hlt]
      intro c hc
      obtain rfl : n.digitChar = c := by simpa using hc
      interval_cases n <;> decide
    · rw [Nat.toDigits_of_base_le (by norm_num) (not_lt.1 hlt),
        List.head?_append_of_ne_nil _ Nat.toDigits_ne_nil]
      exact ih (n / 10) (by omega) (by omega)

/-! ## Reading the texts -/

end Decimal

namespace Numeral

open Decimal

/-- The exponent behind the mark reads as what it was written for. -/
lemma exponent?_exponentText (e : ℤ) : exponent? ('e' :: exponentText e) = some e := by
  generalize hdigits :
    List.replicate (2 - (Nat.toDigits 10 e.natAbs).length) '0' ++ Nat.toDigits 10 e.natAbs = digits
  have hall : digits.all Char.isDigit = true := by
    rw [← hdigits]
    exact List.all_eq_true.2 ((allDigits_zeros _).append (allDigits_toDigits _))
  have hne : digits ≠ [] := by
    rw [← hdigits]
    exact List.append_ne_nil_of_right_ne_nil _ Nat.toDigits_ne_nil
  have hvalue : Nat.ofDigitChars 10 digits 0 = e.natAbs := by
    rw [← hdigits, Nat.ofDigitChars_append, Nat.ofDigitChars_replicate_zero, Nat.mul_zero,
      Nat.ofDigitChars_ten_toDigits]
  have htext : exponentText e = (if e < 0 then '-' else '+') :: digits := by
    rw [← hdigits]
    rfl
  rw [htext]
  by_cases he : e < 0
  · simp only [if_pos he, exponent?, splitSign, hvalue]
    rw [if_pos ⟨Or.inl trivial, hne, hall⟩, if_pos trivial]
    exact congrArg some (by omega)
  · simp only [if_neg he, exponent?, splitSign, hvalue]
    rw [if_pos ⟨Or.inl trivial, hne, hall⟩, if_neg Bool.false_ne_true]
    exact congrArg some (by omega)

/-- A number in scientific form is read by its digits and its exponent. -/
lemma unsigned?_exponent {whole fraction : Text} (hw : AllDigits whole) (hf : AllDigits fraction)
    (hne : whole ≠ []) (e : ℤ) :
    unsigned? (whole ++ '.' :: fraction ++ 'e' :: exponentText e) =
      some ⟨Nat.ofDigitChars 10 (whole ++ fraction) 0, e - fraction.length⟩ := by
  have hmark : ∀ c ∈ ('e' :: exponentText e).head?, Char.isDigit c = false := by simp
  rw [unsigned?, List.append_assoc, List.cons_append, takeWhile_append_apart (by simp),
    dropWhile_append_apart (by simp), List.takeWhile_eq_self_iff.2 hw,
    List.dropWhile_eq_nil_iff.2 hw]
  simp [hne, takeWhile_append_apart hmark, dropWhile_append_apart hmark,
    List.takeWhile_eq_self_iff.2 hf, List.dropWhile_eq_nil_iff.2 hf, exponent?_exponentText]

end Numeral

namespace Decimal

open Numeral

/-! ## The two forms -/

/-- A text in scientific form: `k` digits with a point behind the first, which is no zero, and a
signed exponent of at least two digits.  It reads as `d`. -/
structure IsScientific (k : ℕ) (d : Decimal) (t : Text) : Prop where
  shape : ∃ (first sign : Char) (rest exponent : Text),
    t = first :: '.' :: rest ++ 'e' :: sign :: exponent ∧ AllDigits (first :: rest) ∧
      first ≠ '0' ∧ rest.length + 1 = k ∧ (sign = '+' ∨ sign = '-') ∧ AllDigits exponent ∧
      2 ≤ exponent.length
  reads : unsigned? t = some d

/-- A text written in full: digits, with a point among them unless none stand behind it, and no
zero in front but one directly before the point.  Without the zeros in front there are `k` digits.
It reads as `d`. -/
structure IsFixed (k : ℕ) (d : Decimal) (t : Text) : Prop where
  shape : ∃ whole fraction : Text,
    t = whole ++ (if fraction = [] then [] else '.' :: fraction) ∧ AllDigits (whole ++ fraction) ∧
      (whole = ['0'] ∨ ∃ first rest, whole = first :: rest ∧ first ≠ '0') ∧
      ((whole ++ fraction).dropWhile (· == '0')).length = k
  reads : unsigned? t = some d

section

variable {k : ℕ} {v : ℚ} {d : Decimal}

/-- A point behind the first digit. -/
lemma withPoint_cons (first : Char) {rest : Text} (hrest : rest ≠ []) :
    withPoint (first :: rest) rest.length = first :: '.' :: rest := by
  rw [withPoint, if_neg (by simpa using hrest)]
  simp

lemma isScientific_scientific (hk : 2 ≤ k) (h : IsRounded k v d) :
    IsScientific k d d.scientific := by
  have hlen : (Nat.toDigits 10 d.coefficient).length = k := h.length_toDigits (by omega)
  have hpos : 0 < d.coefficient := lt_of_lt_of_le (by positivity) h.le
  have hdigits := allDigits_toDigits d.coefficient
  obtain ⟨first, rest, hcons⟩ := List.exists_cons_of_ne_nil
    (Nat.toDigits_ne_nil (n := d.coefficient) (b := 10))
  have hrest : rest.length + 1 = k := by rw [← hlen, hcons, List.length_cons]
  have hfirst : first ≠ '0' := head?_toDigits hpos first (by rw [hcons]; rfl)
  have hnonempty : rest ≠ [] := by
    rintro rfl
    rw [List.length_nil] at hrest
    omega
  have htext : d.scientific =
      first :: '.' :: rest ++ 'e' :: exponentText (d.exponent + (k - 1 : ℕ)) := by
    rw [scientific, hcons, ← withPoint_cons first hnonempty, ← hrest]
    rfl
  rw [htext]
  rw [hcons] at hdigits
  refine ⟨⟨first, _, rest, _, rfl, hdigits, hfirst, hrest, ?_, ?_, ?_⟩, ?_⟩
  · split
    · exact Or.inr rfl
    · exact Or.inl rfl
  · exact (allDigits_zeros _).append (allDigits_toDigits _)
  · simp only [List.length_append, List.length_replicate]
    omega
  · have hone : AllDigits [first] := fun c hc => hdigits c (by simp_all)
    have hrest' : AllDigits rest := fun c hc => hdigits c (List.mem_cons_of_mem _ hc)
    refine (unsigned?_exponent hone hrest' (List.cons_ne_nil _ _) _).trans (congrArg some ?_)
    rw [List.singleton_append, ← hcons, Nat.ofDigitChars_ten_toDigits]
    rw [show d.exponent + (k - 1 : ℕ) - (rest.length : ℤ) = d.exponent by omega]

lemma dropWhile_zeros (n : ℕ) {t : Text} (ht : ∀ c ∈ t.head?, c ≠ '0') :
    (List.replicate n '0' ++ t).dropWhile (· == '0') = t := by
  induction n with
  | zero =>
    rcases t with _ | ⟨c, t⟩
    · rfl
    · exact List.dropWhile_cons_of_neg (by simpa using ht c rfl)
  | succ n ih => rw [List.replicate_succ, List.cons_append, List.dropWhile_cons_of_pos rfl, ih]

/-- What comes first when zeros are put in front of digits. -/
lemma whole_eq_or {whole fraction digits : Text} (hd : ∀ c ∈ digits.head?, c ≠ '0')
    (hne : whole ≠ []) (hcat : whole ++ fraction =
      List.replicate (fraction.length + 1 - digits.length) '0' ++ digits) :
    whole = ['0'] ∨ ∃ first rest, whole = first :: rest ∧ first ≠ '0' := by
  obtain ⟨first, rest, rfl⟩ := List.exists_cons_of_ne_nil hne
  rcases hzeros : fraction.length + 1 - digits.length with _ | n
  · rw [hzeros, List.replicate_zero, List.nil_append] at hcat
    exact Or.inr ⟨first, rest, rfl, hd first (by rw [← hcat]; rfl)⟩
  · -- with zeros in front, only one digit stands before the point
    have hlength := congrArg List.length hcat
    simp only [List.length_append, List.length_cons, List.length_replicate] at hlength
    obtain rfl : rest = [] := List.eq_nil_of_length_eq_zero (by omega)
    rw [hzeros, List.replicate_succ, List.cons_append, List.cons_append] at hcat
    rw [(List.cons.inj hcat).1]
    exact Or.inl rfl

lemma isFixed_plain (hk : 1 ≤ k) (h : IsRounded k v d) (he : d.exponent ≤ 0) :
    IsFixed k d d.plain := by
  have hlen : (Nat.toDigits 10 d.coefficient).length = k := h.length_toDigits hk
  have hpos : 0 < d.coefficient := lt_of_lt_of_le (by positivity) h.le
  have hdigits := allDigits_toDigits d.coefficient
  have hfirst := head?_toDigits hpos
  have hdrop : ∀ n, ((List.replicate n '0' ++ Nat.toDigits 10 d.coefficient).dropWhile
      (· == '0')).length = k := fun n => by rw [dropWhile_zeros n hfirst, hlen]
  rw [plain, Int.toNat_eq_zero.2 he, List.replicate_zero, List.append_nil]
  rcases he.eq_or_lt with hzero | hneg
  · rw [hzero, neg_zero, Int.toNat_zero, withPoint, if_pos rfl]
    refine ⟨⟨Nat.toDigits 10 d.coefficient, [], by simp, by simpa using hdigits, ?_, ?_⟩, ?_⟩
    · obtain ⟨first, rest, hcons⟩ := List.exists_cons_of_ne_nil
        (Nat.toDigits_ne_nil (n := d.coefficient) (b := 10))
      exact Or.inr ⟨first, rest, hcons, hfirst first (by rw [hcons]; rfl)⟩
    · rw [List.append_nil]
      exact hdrop 0
    · rw [unsigned?_digits hdigits Nat.toDigits_ne_nil, Nat.ofDigitChars_ten_toDigits, ← hzero]
  · obtain ⟨whole, fraction, hw, hf, hne, hplaces, hcat, htext⟩ :=
      withPoint_eq hdigits (by omega : (-d.exponent).toNat ≠ 0)
    have hnonempty : fraction ≠ [] := by
      rintro rfl
      simp at hplaces
      omega
    rw [htext]
    refine ⟨⟨whole, fraction, by rw [if_neg hnonempty], hw.append hf, ?_, ?_⟩, ?_⟩
    · exact whole_eq_or hfirst hne (by rw [hcat, hplaces])
    · rw [hcat]
      exact hdrop _
    · rw [unsigned?_point hw hf hne, hcat, Nat.ofDigitChars_append,
        Nat.ofDigitChars_replicate_zero, Nat.mul_zero, Nat.ofDigitChars_ten_toDigits, hplaces,
        Int.toNat_of_nonneg (by omega), neg_neg]

end

end Decimal

end DeskCalculator
