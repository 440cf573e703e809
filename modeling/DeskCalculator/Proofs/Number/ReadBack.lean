import DeskCalculator.Number.Numeral
import DeskCalculator.Proofs.Number.DecimalText
import DeskCalculator.Proofs.Number.Shortest

/-!
# Written numbers read back

A run of digits and points has no sign and is none of the words, and so it is read by its digits
alone (`ofText?_of_isPart`).  A decimal number written out in full is read as that number, perhaps
with its zeros moved into the digits (`unsigned?_plain`).  Together with the choice of the shortest
digits this shows that the text of a number which is neither negative nor infinite reads as the
number itself (`read?_text`).
-/

namespace DeskCalculator

open Binary64

/-! ## The value of a decimal number -/

/-- A power of ten and the power of two with three times the exponent. -/
lemma two_zpow_le_ten_zpow {n : ℤ} (hn : 0 ≤ n) : (2 : ℚ) ^ (3 * n) ≤ 10 ^ n := by
  rw [zpow_mul]
  exact zpow_le_zpow_left₀ hn (by norm_num) (by norm_num)

namespace Decimal

variable {d : Decimal} {m : ℕ} {q : ℤ}

lemma coefficient_ne_zero_of_roundsTo (hm : 0 < m) (h : RoundsTo m q d.toRat) :
    d.coefficient ≠ 0 := by
  intro hzero
  have hpos := h.pos hm
  rw [toRat, hzero, Nat.cast_zero, zero_mul] at hpos
  exact lt_irrefl 0 hpos

/-- The cut-off above is beyond every finite number. -/
lemma exponent_le_of_roundsTo (hm : 0 < m) (hmq : IsSignificand m q) (h : RoundsTo m q d.toRat) :
    d.exponent ≤ exponentRange := by
  by_contra hlarge
  have hlt : d.toRat < 2 ^ (1024 : ℤ) := by
    refine (h.lt hmq.lt).trans_le (zpow_le_zpow_right₀ one_le_two ?_)
    have := hmq.le_most
    omega
  have hc : (1 : ℚ) ≤ d.coefficient := by
    exact_mod_cast Nat.one_le_iff_ne_zero.2 (coefficient_ne_zero_of_roundsTo hm h)
  have hexp : (401 : ℤ) ≤ d.exponent := by
    change ¬ d.exponent ≤ 400 at hlarge
    omega
  have hge : (2 : ℚ) ^ (1024 : ℤ) ≤ d.toRat := by
    calc (2 : ℚ) ^ (1024 : ℤ) ≤ 2 ^ (3 * d.exponent) :=
          zpow_le_zpow_right₀ one_le_two (by omega)
      _ ≤ 10 ^ d.exponent := two_zpow_le_ten_zpow (by omega)
      _ = 1 * (10 : ℚ) ^ d.exponent := (one_mul _).symm
      _ ≤ d.coefficient * (10 : ℚ) ^ d.exponent :=
          mul_le_mul_of_nonneg_right hc (zpow_nonneg (by norm_num) _)
  exact absurd hlt (not_lt.2 hge)

/-- The cut-off below is beyond every positive number. -/
lemma le_exponent_of_roundsTo (hm : 0 < m) (hmq : IsSignificand m q) (h : RoundsTo m q d.toRat) :
    -((exponentRange + d.coefficient.log2 : ℕ) : ℤ) ≤ d.exponent := by
  by_contra hsmall
  have hge : (2 : ℚ) ^ (-1075 : ℤ) ≤ d.toRat := by
    have hm' : (1 : ℚ) ≤ m := by exact_mod_cast hm
    have hunit := le_interval_low (q := q) hm
    calc (2 : ℚ) ^ (-1075 : ℤ) = 2 * 2 ^ (-1076 : ℤ) := by
          rw [show (-1075 : ℤ) = 1 + -1076 by norm_num, zpow_add₀ two_ne_zero, zpow_one]
      _ ≤ 2 * (2 : ℚ) ^ (q - 2) := by
          refine mul_le_mul_of_nonneg_left (zpow_le_zpow_right₀ one_le_two ?_) two_pos.le
          have : -1074 ≤ q := hmq.least_le
          omega
      _ ≤ ((Shortest.interval m q).1 : ℚ) * 2 ^ (q - 2) :=
          mul_le_mul_of_nonneg_right (by linarith) (by positivity)
      _ ≤ d.toRat := h.low
  have hexp : d.exponent ≤ -400 - 1 - d.coefficient.log2 := by
    change ¬ -((400 + d.coefficient.log2 : ℕ) : ℤ) ≤ d.exponent at hsmall
    omega
  have hlt : d.toRat < 2 ^ (-1075 : ℤ) := by
    have hc : (d.coefficient : ℚ) < 2 ^ (d.coefficient.log2 + 1 : ℤ) := by
      rw [← Nat.cast_add_one, zpow_natCast]
      exact_mod_cast Nat.lt_log2_self
    have hten : (10 : ℚ) ^ d.exponent ≤ 2 ^ (3 * d.exponent) := by
      have hinv := two_zpow_le_ten_zpow (n := -d.exponent) (by omega)
      rwa [mul_neg, zpow_neg, zpow_neg, inv_le_inv₀ (by positivity) (by positivity)] at hinv
    calc d.toRat < (2 : ℚ) ^ (d.coefficient.log2 + 1 : ℤ) * 10 ^ d.exponent :=
          mul_lt_mul_of_pos_right hc (by positivity)
      _ ≤ (2 : ℚ) ^ (d.coefficient.log2 + 1 : ℤ) * 2 ^ (3 * d.exponent) :=
          mul_le_mul_of_nonneg_left hten (by positivity)
      _ = (2 : ℚ) ^ (d.coefficient.log2 + 1 + 3 * d.exponent) := (zpow_add₀ two_ne_zero _ _).symm
      _ ≤ 2 ^ (-1075 : ℤ) := zpow_le_zpow_right₀ one_le_two (by omega)
  exact absurd hlt (not_lt.2 hge)

/-- A decimal number that lies in the interval of `m · 2 ^ q` has that number as its value. -/
lemma value_eq_of_roundsTo (hm : 0 < m) (hmq : IsSignificand m q) (h : RoundsTo m q d.toRat) :
    d.value = Float.ofBits (UInt64.ofNat (bitsOf m q)) := by
  have hratio : ((d.coefficient * 10 ^ d.exponent.toNat : ℕ) : ℚ) / (10 ^ (-d.exponent).toNat : ℕ) =
      d.toRat := by
    have hraised := ratio_raised_one d.coefficient (b := 10) (by norm_num) d.exponent
    rwa [Nat.cast_ofNat] at hraised
  rw [value, if_neg (coefficient_ne_zero_of_roundsTo hm h),
    if_neg (not_lt.2 (exponent_le_of_roundsTo hm hmq h)),
    if_neg (not_lt.2 (le_exponent_of_roundsTo hm hmq h)), nearest,
    nearestBits_eq (by positivity) hm hmq (by rwa [hratio])]

end Decimal

/-! ## Reading digits and points -/

namespace Numeral

open Decimal

lemma toLower_of_isPart {c : Char} (hc : isPart c = true) : c.toLower = c := by
  have hupper : ¬ 65 ≤ c.val := by
    intro hge
    exact absurd (UInt32.le_trans hge (val_le_of_isPart hc)) (by decide)
  exact dif_neg fun h => hupper h.1

lemma splitSign_of_isPart {c : Char} (hc : isPart c = true) (t : Text) :
    splitSign (c :: t) = (false, c :: t) := by
  rw [splitSign]
  · rintro t' ht'
    rw [(List.cons.inj ht').1] at hc
    exact absurd hc (by decide)
  · rintro t' ht'
    rw [(List.cons.inj ht').1] at hc
    exact absurd hc (by decide)

/-- A text that starts with a digit or a point behind its sign, if it has one, is read by its
digits. -/
lemma ofText?_of_splitSign {s t : Text} {c : Char} {negative : Bool}
    (hs : splitSign s = (negative, c :: t)) (hc : isPart c = true) :
    ofText? s = (unsigned? (c :: t)).map (.decimal negative) := by
  have hword : ∀ d w, isPart d = false → ¬ (c :: t).map Char.toLower = d :: w := by
    intro d w hd heq
    have hhead := (List.cons.inj heq).1
    rw [toLower_of_isPart hc] at hhead
    rw [hhead, hd] at hc
    exact Bool.false_ne_true hc
  rw [ofText?, hs]
  have hinf : ¬((c :: t).map Char.toLower = "inf".toList ∨
      (c :: t).map Char.toLower = "infinity".toList) := by
    rintro (h | h)
    · exact hword 'i' _ (by decide) h
    · exact hword 'i' _ (by decide) h
  have hnan : ¬(c :: t).map Char.toLower = "nan".toList := hword 'n' _ (by decide)
  dsimp only
  rw [if_neg hinf, if_neg hnan]

lemma ofText?_of_isPart {c : Char} (hc : isPart c = true) (t : Text) :
    ofText? (c :: t) = (unsigned? (c :: t)).map (.decimal false) :=
  ofText?_of_splitSign (splitSign_of_isPart hc t) hc

lemma ofText?_minus {c : Char} (hc : isPart c = true) (t : Text) :
    ofText? ('-' :: c :: t) = (unsigned? (c :: t)).map (.decimal true) :=
  ofText?_of_splitSign rfl hc

lemma unsigned?_digits {digits : Text} (hd : AllDigits digits) (hne : digits ≠ []) :
    unsigned? digits = some ⟨Nat.ofDigitChars 10 digits 0, 0⟩ := by
  rw [unsigned?, List.takeWhile_eq_self_iff.2 hd, List.dropWhile_eq_nil_iff.2 hd]
  simp [hne, exponent?]

lemma unsigned?_point {whole fraction : Text} (hw : AllDigits whole) (hf : AllDigits fraction)
    (hne : whole ≠ []) :
    unsigned? (whole ++ '.' :: fraction) =
      some ⟨Nat.ofDigitChars 10 (whole ++ fraction) 0, -(fraction.length : ℤ)⟩ := by
  rw [unsigned?, takeWhile_append_apart (by simp), dropWhile_append_apart (by simp),
    List.takeWhile_eq_self_iff.2 hw, List.dropWhile_eq_nil_iff.2 hw]
  simp [hne, exponent?, List.takeWhile_eq_self_iff.2 hf, List.dropWhile_eq_nil_iff.2 hf]

/-- A number written out in full is read as that number. -/
lemma unsigned?_plain (d : Decimal) : ∃ d', unsigned? d.plain = some d' ∧ d'.toRat = d.toRat := by
  have hdigits := allDigits_plainDigits d
  rw [plain]
  rcases lt_or_ge d.exponent 0 with hneg | hnonneg
  · have hzeros : d.exponent.toNat = 0 := Int.toNat_eq_zero.2 hneg.le
    obtain ⟨whole, fraction, hw, hf, hne, hlen, hcat, heq⟩ :=
      withPoint_eq hdigits (by omega : (-d.exponent).toNat ≠ 0)
    refine ⟨_, by rw [heq, unsigned?_point hw hf hne], ?_⟩
    rw [hcat, hzeros, List.replicate_zero, List.append_nil, Nat.ofDigitChars_append,
      Nat.ofDigitChars_replicate_zero, Nat.mul_zero, Nat.ofDigitChars_ten_toDigits, hlen, toRat,
      Int.toNat_of_nonneg (by omega), neg_neg, toRat]
  · rw [Int.toNat_eq_zero.2 (by omega : -d.exponent ≤ 0), withPoint, if_pos rfl]
    refine ⟨_, unsigned?_digits hdigits ?_, ?_⟩
    · exact List.append_ne_nil_of_left_ne_nil Nat.toDigits_ne_nil _
    · rw [Nat.ofDigitChars_append, Nat.ofDigitChars_ten_toDigits, Nat.ofDigitChars_replicate_zero,
        toRat, toRat, zpow_zero, mul_one, ← Int.toNat_of_nonneg hnonneg, zpow_natCast]
      push_cast
      rw [mul_comm, Int.toNat_natCast]

/-- The text of a decimal number in the interval of `m · 2 ^ q` reads as that number. -/
lemma read?_plain {d : Decimal} {m : ℕ} {q : ℤ} (hm : 0 < m) (hmq : IsSignificand m q)
    (h : RoundsTo m q d.toRat) :
    read? d.plain = some (Float.ofBits (UInt64.ofNat (bitsOf m q))) := by
  obtain ⟨d', hread, hrat⟩ := unsigned?_plain d
  obtain ⟨c, t, htext⟩ := List.exists_cons_of_ne_nil (plain_ne_nil d)
  have hc : isPart c = true := isPart_of_mem_plain (by rw [htext]; exact List.mem_cons_self)
  rw [htext] at hread
  rw [read?, htext, ofText?_of_isPart hc, hread, Option.map_some, Option.map_some, Numeral.value]
  exact congrArg some (Decimal.value_eq_of_roundsTo hm hmq (by rwa [hrat]))

end Numeral

/-! ## Numbers that are read are not negative -/

lemma Decimal.exists_bits_value (d : Decimal) :
    ∃ n ≤ infinityBits, d.value = Float.ofBits (UInt64.ofNat n) := by
  have hnearest : ∀ num den,
      ∃ n ≤ infinityBits, nearest num den = Float.ofBits (UInt64.ofNat n) := by
    intro num den
    refine ⟨nearestBits num den, ?_, rfl⟩
    rw [nearestBits]
    split
    · exact Nat.zero_le _
    · exact Nat.min_le_left _ _
  rw [Decimal.value]
  split
  · exact hnearest 0 1
  split
  · exact ⟨infinityBits, le_rfl, rfl⟩
  split
  · exact hnearest 0 1
  · exact hnearest _ _

/-- What a run of digits and points reads as is not negative, and it is finite unless it is
infinity. -/
lemma Numeral.ofFloat_of_read? {l : Text} {x : Float} (hl : ∀ c ∈ l, isPart c = true)
    (h : read? l = some x) (hx : x.toBits.toNat ≠ infinityBits) :
    ∃ m q, ofFloat x = .finite false m q := by
  rcases l with _ | ⟨c, t⟩
  · exact absurd (show none = some x from h) (by simp)
  rw [read?, ofText?_of_isPart (hl c List.mem_cons_self)] at h
  obtain ⟨numeral, hnumeral, hvalue⟩ := Option.map_eq_some_iff.1 h
  obtain ⟨d, -, rfl⟩ := Option.map_eq_some_iff.1 hnumeral
  obtain ⟨n, hn, hbits⟩ := d.exists_bits_value
  obtain rfl : x = Float.ofBits (UInt64.ofNat n) := hvalue.symm.trans hbits
  rw [toBits_ofBits hn] at hx
  exact ofFloat_ofBits (lt_of_le_of_ne hn hx)

/-! ## The text of a number -/

namespace Shortest

open Numeral

lemma text_of_ofFloat {x : Float} {m : ℕ} {q : ℤ} (h : ofFloat x = .finite false m q) :
    text x = if m = 0 then ['0'] else (decimal m q).plain := by
  rw [text, h]
  rfl

lemma isPart_of_mem_text {x : Float} {m : ℕ} {q : ℤ} (h : ofFloat x = .finite false m q) {c : Char}
    (hc : c ∈ text x) : isPart c = true := by
  rw [text_of_ofFloat h] at hc
  split at hc
  · rw [List.mem_singleton.1 hc]
    decide
  · exact Decimal.isPart_of_mem_plain hc

/-- **Written numbers read back.**  The text of a finite number that is not negative reads as the
number. -/
lemma read?_text {x : Float} {m : ℕ} {q : ℤ} (h : ofFloat x = .finite false m q) :
    read? (text x) = some x := by
  have hmq := isSignificand_of_ofFloat h
  have hx := eq_of_ofFloat h
  rw [text_of_ofFloat h]
  by_cases hm : m = 0
  · subst hm
    have hzero : bitsOf 0 q = 0 := by
      have hq : q = leastExponent := hmq.full.resolve_right (by norm_num [fractionBits])
      rw [hq]
      rfl
    rw [if_pos rfl, hx, hzero]
    rfl
  · rw [if_neg hm, hx]
    exact read?_plain (Nat.pos_of_ne_zero hm) hmq (decimal_roundsTo (Nat.pos_of_ne_zero hm) hmq)

end Shortest

end DeskCalculator
