import DeskCalculator.Proofs.Number.Redisplay
import DeskCalculator.Session.Basic

/-!
# Reading the display back

A function key reads the number on the display, and not the number that was displayed, of which only
some digits are left.  The first reading may therefore lead to another number.  That number is shown
as the same rational number, perhaps in another notation, and from then on nothing changes: it reads
back as itself (`display_read_back`).  So two presses of the key that changes the sign cancel out,
as far as the number on the display is concerned.
-/

namespace DeskCalculator

namespace Session

open Binary64 Numeral

/-- Each press of the key that changes the sign reads the display anew. -/
lemma display_negate_negate {s : Session} {y z : Float} (hy : read? s.state.display = some y)
    (hz : read? (Display.text (-y)) = some z) :
    (s.press [.function .negate, .function .negate]).state.display = Display.text (-z) := by
  have honce : (s.function .negate).state.display = Display.text (-y) := by
    change Display.text (-((read? s.state.display).getD 0)) = _
    rw [hy, Option.getD_some]
  change Display.text (-((read? (s.function .negate).state.display).getD 0)) = _
  rw [honce, hz, Option.getD_some]

/-- **Reading the display back does not change the number on it.**  Let a zero, or a number between
`10 ^ (-307)` and `10 ^ 307` in magnitude, be shown by a text that is written for the rational
number `r`.  The text reads as the number `y` nearest to `r`.  The text of `y` is again written for
`r` exactly, and it reads as `y`, so that showing and reading it changes nothing any more.  In a
session with the first text on the display, two presses of the key that changes the sign lead to
the text of `y`. -/
theorem display_read_back {x : Float} {v : ℚ} (hx : Denotes x v)
    (hv : v = 0 ∨ 10 ^ (-307 : ℤ) ≤ |v| ∧ |v| ≤ 10 ^ (307 : ℤ)) :
    ∃ (r : ℚ) (y : Float), rational? (Display.text x) = some r ∧
      read? (Display.text x) = some y ∧ IsNearestTo y r ∧
      rational? (Display.text y) = some r ∧ read? (Display.text y) = some y ∧
      ∀ s : Session, s.state.display = Display.text x →
        (s.press [.function .negate, .function .negate]).state.display = Display.text y := by
  obtain ⟨⟨negative, m, q, hparts⟩, rfl⟩ := hx
  rw [hparts] at hv
  rcases Nat.eq_zero_or_pos m with rfl | hm
  · obtain ⟨hrational, hread⟩ := Display.numeral_text_of_zero hparts
    obtain ⟨hrational', hread'⟩ := Display.numeral_text_of_zero ofFloat_nearest_zero
    have hneg := ofFloat_neg ofFloat_nearest_zero
    refine ⟨0, nearest 0 1, hrational, hread, isNearestTo_zero ?_, hrational', hread',
      fun s hs => ?_⟩
    · exact ⟨⟨_, _, _, ofFloat_nearest_zero⟩, by rw [ofFloat_nearest_zero, exactValue_zero]⟩
    · rw [display_negate_negate (hs ▸ hread) (Display.numeral_text_of_zero hneg).2,
        Display.text_zero hneg, Display.text_zero ofFloat_nearest_zero]
  · have hpos : (0 : ℚ) < m * 2 ^ q := by positivity
    have hne : (finite negative m q).exactValue ≠ 0 := by
      rw [← abs_pos, abs_exactValue]
      exact hpos
    obtain ⟨hlow, hhigh⟩ := hv.resolve_left hne
    rw [abs_exactValue] at hlow hhigh
    obtain ⟨d, htext, hshow, hlow', hhigh'⟩ := Display.exists_ofText?_text hparts hm
    obtain ⟨m, q, hm, hmq, hround⟩ := exists_roundsTo (hlow' _ hlow) (hhigh' _ hhigh)
    have hm' : 0 < m := lt_of_lt_of_le (by norm_num) hm
    have hy : ofFloat (value (.decimal negative d)) = .finite negative m q :=
      ofFloat_value hm' hmq hround
    have hread : read? (Display.text x) = some (value (.decimal negative d)) := by
      rw [read?, htext, Option.map_some]
    obtain ⟨hrational, hback⟩ := Display.numeral_text_of_roundsTo hy hm hshow hround
    -- the opposite number has the same magnitude, and reads back as well
    have hback' := (Display.numeral_text_of_roundsTo (ofFloat_neg hy) hm hshow hround).2
    refine ⟨_, _, rational?_of_ofText? htext, hread, isNearestTo_value hm' hmq hround, hrational,
      hback, fun s hs => ?_⟩
    rw [display_negate_negate (hs ▸ hread) hback', neg_neg_of_finite hy]

/-- The number next above two is shown with eight digits, as a two with seven zeros behind the
point.  That text reads as two itself, which is shown by a single digit. -/
theorem display_read_back_above_two :
    (Denotes (Float.ofBits 0x4000000000000001) ((2 ^ 52 + 1) / 2 ^ 51) ∧
      10 ^ (-307 : ℤ) ≤ |((2 ^ 52 + 1) / 2 ^ 51 : ℚ)| ∧
      |((2 ^ 52 + 1) / 2 ^ 51 : ℚ)| ≤ 10 ^ (307 : ℤ)) ∧
    Display.text (Float.ofBits 0x4000000000000001) = "2.0000000".toList ∧
    (read? "2.0000000".toList).map Display.text = some ['2'] ∧
    ∃ (r : ℚ) (y : Float), rational? "2.0000000".toList = some r ∧
      read? "2.0000000".toList = some y ∧ IsNearestTo y r ∧
      rational? (Display.text y) = some r ∧ read? (Display.text y) = some y ∧
      ∀ s : Session, s.state.display = "2.0000000".toList →
        (s.press [.function .negate, .function .negate]).state.display = Display.text y := by
  have hparts : ofFloat (Float.ofBits 0x4000000000000001) = .finite false (2 ^ 52 + 1) (-51) := by
    decide +kernel
  have hx : Denotes (Float.ofBits 0x4000000000000001) ((2 ^ 52 + 1) / 2 ^ 51) := by
    refine ⟨⟨_, _, _, hparts⟩, ?_⟩
    rw [hparts, exactValue]
    norm_num
  have htext : Display.text (Float.ofBits 0x4000000000000001) = "2.0000000".toList := by
    decide +kernel
  have hv : 10 ^ (-307 : ℤ) ≤ |((2 ^ 52 + 1) / 2 ^ 51 : ℚ)| ∧
      |((2 ^ 52 + 1) / 2 ^ 51 : ℚ)| ≤ 10 ^ (307 : ℤ) := by
    rw [abs_of_pos (by norm_num)]
    constructor
    · exact (zpow_le_one_of_nonpos₀ (by norm_num) (by norm_num)).trans (by norm_num)
    · exact le_trans (by norm_num) (zpow_le_zpow_right₀ (by norm_num) (by norm_num : (1 : ℤ) ≤ 307))
  refine ⟨⟨hx, hv⟩, htext, by decide +kernel, ?_⟩
  rw [← htext]
  exact display_read_back hx (Or.inr hv)

end Session

end DeskCalculator
