import DeskCalculator.Display
import DeskCalculator.Number.Numeral
import Mathlib.Tactic.Lemma

/-!
# The text of a decimal number

What characters decimal numbers are written with.  A number written out in full consists of
digits with a point or without (`isPart_of_mem_withPoint`); in scientific form they are followed
by an `e`, a sign and digits (`scientific_eq`).  The display shows every positive number
in one of these two ways (`fraction_eq`).
-/

namespace DeskCalculator

namespace Numeral

lemma isPart_of_isDigit {c : Char} (h : c.isDigit = true) : isPart c = true := by
  rw [isPart, h, Bool.true_or]

lemma isPart_point : isPart '.' = true := by decide

/-- What is no part of a number differs from what is. -/
lemma ne_of_isPart {c d : Char} (hc : isPart c = true) (hd : isPart d = false) : c ≠ d := by
  rintro rfl
  exact Bool.false_ne_true (hd.symm.trans hc)

/-- The parts of numbers come before all letters. -/
lemma val_le_of_isPart {c : Char} (hc : isPart c = true) : c.val ≤ 57 := by
  rcases Bool.or_eq_true_iff.1 hc with hc | hc
  · exact of_decide_eq_true (Bool.and_eq_true_iff.1 hc).2
  · rw [beq_iff_eq.1 hc]
    decide

lemma isAlpha_of_isPart {c : Char} (hc : isPart c = true) : c.isAlpha = false := by
  have hbelow : ∀ n : UInt32, 57 < n → ¬n ≤ c.val := fun n hn hle =>
    absurd (UInt32.le_trans hle (val_le_of_isPart hc)) (UInt32.not_le.2 hn)
  have hupper : c.isUpper = false := decide_eq_false fun h => hbelow 65 (by decide) h.1
  have hlower : c.isLower = false := Bool.eq_false_iff.2 fun h =>
    hbelow 97 (by decide) (of_decide_eq_true (Bool.and_eq_true_iff.1 h).1)
  exact Bool.or_eq_false_iff.2 ⟨hupper, hlower⟩

/-- What stands behind a run does not belong to it. -/
lemma takeWhile_append_apart {p : Char → Bool} {t : Text} (ht : ∀ c ∈ t.head?, p c = false)
    (s : Text) : (s ++ t).takeWhile p = s.takeWhile p := by
  induction s with
  | nil =>
    rcases t with _ | ⟨c, t⟩
    · rfl
    · exact List.takeWhile_cons_of_neg (by simp [ht c rfl])
  | cons d s ih => rw [List.cons_append, List.takeWhile_cons, List.takeWhile_cons, ih]

lemma dropWhile_append_apart {p : Char → Bool} {t : Text} (ht : ∀ c ∈ t.head?, p c = false)
    (s : Text) : (s ++ t).dropWhile p = s.dropWhile p ++ t := by
  induction s with
  | nil =>
    rcases t with _ | ⟨c, t⟩
    · rfl
    · exact List.dropWhile_cons_of_neg (by simp [ht c rfl])
  | cons d s ih =>
    rw [List.cons_append, List.dropWhile_cons, List.dropWhile_cons, ih]
    split <;> rfl

end Numeral

namespace Decimal

open Numeral

/-- All characters of the text are digits. -/
def AllDigits (t : Text) : Prop := ∀ c ∈ t, c.isDigit = true

lemma AllDigits.append {s t : Text} (hs : AllDigits s) (ht : AllDigits t) :
    AllDigits (s ++ t) := by
  intro c hc
  rcases List.mem_append.1 hc with hc | hc
  · exact hs c hc
  · exact ht c hc

lemma allDigits_toDigits (n : Nat) : AllDigits (Nat.toDigits 10 n) :=
  fun _ hc => Nat.isDigit_of_mem_toDigits (by decide) (by decide) hc

lemma allDigits_zeros (n : Nat) : AllDigits (List.replicate n '0') := by
  intro c hc
  rw [List.eq_of_mem_replicate hc]
  decide

/-- The digits before and after the point, for a number of places that is not zero. -/
lemma withPoint_eq {digits : Text} (hd : AllDigits digits) {places : Nat} (hp : places ≠ 0) :
    ∃ whole fraction : Text, AllDigits whole ∧ AllDigits fraction ∧ whole ≠ [] ∧
      fraction.length = places ∧
      whole ++ fraction = List.replicate (places + 1 - digits.length) '0' ++ digits ∧
      withPoint digits places = whole ++ '.' :: fraction := by
  have hpad : AllDigits (List.replicate (places + 1 - digits.length) '0' ++ digits) :=
    (allDigits_zeros _).append hd
  refine ⟨_, _, fun c hc => hpad c (List.mem_of_mem_take hc),
    fun c hc => hpad c (List.mem_of_mem_drop hc), ?_, ?_, List.take_append_drop _ _, if_neg hp⟩
  · refine List.ne_nil_of_length_pos ?_
    simp only [List.length_take, List.length_append, List.length_replicate]
    omega
  · simp only [List.length_drop, List.length_append, List.length_replicate]
    omega

lemma isPart_of_mem_withPoint {digits : Text} (hd : AllDigits digits) {places : Nat} {c : Char}
    (hc : c ∈ withPoint digits places) : isPart c = true := by
  by_cases hp : places = 0
  · rw [withPoint, if_pos hp] at hc
    exact isPart_of_isDigit (hd c hc)
  · obtain ⟨whole, fraction, hw, hf, -, -, -, heq⟩ := withPoint_eq hd hp
    rw [heq] at hc
    rcases List.mem_append.1 hc with hc | hc
    · exact isPart_of_isDigit (hw c hc)
    · rcases List.mem_cons.1 hc with rfl | hc
      · exact isPart_point
      · exact isPart_of_isDigit (hf c hc)

lemma withPoint_ne_nil {digits : Text} (hd : digits ≠ []) (places : Nat) :
    withPoint digits places ≠ [] := by
  rw [withPoint]
  split
  · exact hd
  · exact List.append_ne_nil_of_right_ne_nil _ (List.cons_ne_nil _ _)

lemma isPart_head_withPoint {digits : Text} (hd : AllDigits digits) (places : Nat) {c : Char}
    {t rest : Text} (h : withPoint digits places ++ rest = c :: t) (hne : digits ≠ []) :
    isPart c = true := by
  obtain ⟨d, s, hds⟩ := List.exists_cons_of_ne_nil (withPoint_ne_nil hne places)
  have hmem : d ∈ withPoint digits places := hds ▸ List.mem_cons_self
  rw [hds, List.cons_append] at h
  rw [← (List.cons.inj h).1]
  exact isPart_of_mem_withPoint hd hmem

/-- The digits of a number written out in full, without the point. -/
lemma allDigits_plainDigits (d : Decimal) :
    AllDigits (Nat.toDigits 10 d.coefficient ++ List.replicate d.exponent.toNat '0') :=
  (allDigits_toDigits _).append (allDigits_zeros _)

lemma isPart_of_mem_plain {d : Decimal} {c : Char} (hc : c ∈ d.plain) : isPart c = true :=
  isPart_of_mem_withPoint (allDigits_plainDigits d) hc

lemma plain_ne_nil (d : Decimal) : d.plain ≠ [] :=
  withPoint_ne_nil (List.append_ne_nil_of_left_ne_nil Nat.toDigits_ne_nil _) _

/-- A number in scientific form: digits with a point or without, an `e`, a sign, and digits. -/
lemma scientific_eq (d : Decimal) :
    ∃ (mantissa digits : Text) (places : Nat) (sign : Char), AllDigits mantissa ∧ mantissa ≠ [] ∧
      AllDigits digits ∧ digits ≠ [] ∧ (sign = '-' ∨ sign = '+') ∧
      d.scientific = withPoint mantissa places ++ 'e' :: sign :: digits := by
  refine ⟨_, _, _, _, allDigits_toDigits d.coefficient, Nat.toDigits_ne_nil,
    (allDigits_zeros _).append (allDigits_toDigits _),
    List.append_ne_nil_of_right_ne_nil _ Nat.toDigits_ne_nil, ?_, rfl⟩
  split
  · exact Or.inl rfl
  · exact Or.inr rfl

end Decimal

namespace Display

open Decimal Numeral

/-- A positive number is shown with digits and perhaps a point, or in scientific form. -/
lemma fraction_eq (num den : Nat) :
    (∃ (digits : Text) (places : Nat), AllDigits digits ∧ digits ≠ [] ∧
        fraction num den = withPoint digits places) ∨
      ∃ d : Decimal, fraction num den = d.scientific := by
  unfold fraction
  split
  · exact Or.inl ⟨_, 0, allDigits_toDigits _, Nat.toDigits_ne_nil, rfl⟩
  split
  · exact Or.inr ⟨_, rfl⟩
  dsimp only
  split
  · exact Or.inl ⟨_, _, allDigits_plainDigits _,
      List.append_ne_nil_of_left_ne_nil Nat.toDigits_ne_nil _, rfl⟩
  · exact Or.inr ⟨_, rfl⟩

lemma fraction_ne_nil (num den : Nat) : fraction num den ≠ [] := by
  rcases fraction_eq num den with ⟨digits, places, -, hne, heq⟩ | ⟨d, hd⟩
  · rw [heq]
    exact withPoint_ne_nil hne places
  · obtain ⟨mantissa, digits, places, sign, -, hne, -, -, -, heq⟩ := d.scientific_eq
    rw [hd, heq]
    exact List.append_ne_nil_of_left_ne_nil (withPoint_ne_nil hne places) _

/-- The text of a positive number starts with a digit. -/
lemma isPart_head_fraction {num den : Nat} {c : Char} {t : Text} (h : fraction num den = c :: t) :
    isPart c = true := by
  rcases fraction_eq num den with ⟨digits, places, hd, hne, heq⟩ | ⟨d, hd⟩
  · rw [heq, ← List.append_nil (withPoint digits places)] at h
    exact isPart_head_withPoint hd places h hne
  · obtain ⟨mantissa, digits, places, sign, hmantissa, hne, -, -, -, heq⟩ := d.scientific_eq
    rw [hd, heq] at h
    exact isPart_head_withPoint hmantissa places h hne

/-- What a result is written with: parts of numbers, signs and letters. -/
def IsWritten (c : Char) : Prop :=
  isPart c = true ∨ c = '-' ∨ c = '+' ∨ c.isAlpha = true

lemma isWritten_of_mem_fraction {num den : Nat} {c : Char} (hc : c ∈ fraction num den) :
    IsWritten c := by
  rcases fraction_eq num den with ⟨digits, places, hdig, -, heq⟩ | ⟨d, hd⟩
  · exact Or.inl (isPart_of_mem_withPoint hdig (heq ▸ hc))
  · obtain ⟨mantissa, exponent, places, sign, hm, -, he, -, hsign, heq⟩ := d.scientific_eq
    rw [hd, heq, List.mem_append, List.mem_cons, List.mem_cons] at hc
    rcases hc with hc | rfl | rfl | hc
    · exact Or.inl (isPart_of_mem_withPoint hm hc)
    · exact Or.inr (Or.inr (Or.inr (by decide)))
    · exact Or.inr (hsign.imp_right Or.inl)
    · exact Or.inl (isPart_of_isDigit (he c hc))

lemma isWritten_of_mem_text {x : Float} {c : Char} (hc : c ∈ text x) : IsWritten c := by
  have hsign : ∀ {negative : Bool}, c ∈ (if negative then ['-'] else []) → IsWritten c := by
    intro negative hc
    cases negative
    · exact absurd hc (List.not_mem_nil)
    · exact Or.inr (Or.inl (List.mem_singleton.1 hc))
  have hword : ∀ w : Text, w.all Char.isAlpha = true → c ∈ w → IsWritten c :=
    fun w hw hc => Or.inr (Or.inr (Or.inr (List.all_eq_true.1 hw c hc)))
  unfold text at hc
  split at hc
  · exact hword error (by decide) hc
  · exact (List.mem_append.1 hc).elim hsign (hword _ (by decide))
  · split at hc
    · exact Or.inl (List.mem_singleton.1 hc ▸ by decide)
    · exact (List.mem_append.1 hc).elim hsign isWritten_of_mem_fraction

/-- The display is never empty. -/
lemma text_ne_nil (x : Float) : text x ≠ [] := by
  unfold text
  split
  · decide
  · exact List.append_ne_nil_of_right_ne_nil _ (by decide)
  · split
    · exact List.cons_ne_nil _ _
    · exact List.append_ne_nil_of_right_ne_nil _ (fraction_ne_nil _ _)

/-- What is shown for an error is what is shown for a result that is not a number. -/
lemma text_notANumber : text Binary64.notANumber = error := rfl

end Display

end DeskCalculator
