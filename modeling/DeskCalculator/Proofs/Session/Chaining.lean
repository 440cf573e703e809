import DeskCalculator.Proofs.Expression.Continuation
import DeskCalculator.Proofs.Session.History

/-!
# Going on from a result

After a result has been shown, the key of an operator puts the text of the display in front of what
is typed next.  Pressing the keys of a literal and the equals key then computes that text
(`state_press_literal`), and so the display is read again as arithmetic text.  A result that is
written out in full is read as the number that is shown; one in scientific form is taken apart at
the sign of its exponent.
-/

namespace DeskCalculator

namespace Key

/-- The keys that the characters of a text name, one by one. -/
def spelled (t : Text) : List Key :=
  t.filterMap fun c => ofWord? [c]

lemma exists_digitChar {c : Char} (hc : c.isDigit = true) :
    ∃ d : Fin 10, d.val.digitChar = c := by
  obtain ⟨hlow, hhigh⟩ : 48 ≤ c.toNat ∧ c.toNat ≤ 57 := by
    simpa [Char.isDigit, UInt32.le_iff_toNat_le] using hc
  have hchar : (c.toNat - 48).digitChar = c := by
    rw [← Char.ofNat_toNat c]
    generalize c.toNat = n at hlow hhigh
    interval_cases n <;> decide
  exact ⟨⟨c.toNat - 48, by omega⟩, hchar⟩

/-- A digit and the point are keys by themselves, and they type what they are. -/
lemma exists_key_of_isPart {c : Char} (hc : Numeral.isPart c = true) :
    ∃ k, ofWord? [c] = some k ∧ ∀ s : Session, s.state.justComputed = false →
      (s.act k.action).state = .editing (s.state.expression ++ [c]) := by
  rcases Bool.or_eq_true_iff.1 hc with hdigit | hpoint
  · obtain ⟨d, rfl⟩ := exists_digitChar hdigit
    refine ⟨.digit d, ofWord?_text (.digit d), ?_⟩
    intro s hs
    have hd : ¬ 9 < d.val := by omega
    simp [Session.act, action, State.digit, hd, hs]
  · obtain rfl : c = '.' := beq_iff_eq.1 hpoint
    refine ⟨.point, by decide, ?_⟩
    intro s hs
    simp [Session.act, action, State.point, hs]

end Key

namespace Session

/-- Typing a number writes it behind the expression. -/
lemma press_spelled {t : Text} (ht : ∀ c ∈ t, Numeral.isPart c = true) {s : Session}
    (hs : s.state.justComputed = false) :
    (s.press (Key.spelled t)).state.expression = s.state.expression ++ t ∧
      (s.press (Key.spelled t)).state.justComputed = false := by
  induction t generalizing s with
  | nil => exact ⟨(List.append_nil _).symm, hs⟩
  | cons c t ih =>
    obtain ⟨k, hk, hact⟩ := Key.exists_key_of_isPart (ht c List.mem_cons_self)
    have hstate := hact s hs
    have hkeys : Key.spelled (c :: t) = k :: Key.spelled t := by
      rw [Key.spelled, List.filterMap_cons, hk]
      rfl
    have hrest := ih (fun d hd => ht d (List.mem_cons_of_mem c hd))
      (s := s.act k.action) (by rw [hstate]; rfl)
    rw [hstate, State.expression_editing, List.append_assoc] at hrest
    rw [hkeys]
    exact hrest

/-- What is shown when the expression has been computed. -/
lemma state_compute {s : Session} (hne : s.state.expression ≠ []) :
    s.compute.state = ⟨[], Calculation.display
      ⟨s.state.expression, Expression.evaluate s.state.expression⟩, true⟩ := by
  cases hv : Expression.evaluate s.state.expression with
  | ok x => rw [compute_of_ok hne hv]; rfl
  | error e => rw [compute_of_error hne hv]; rfl

/-- An operator, a number and the equals key after a result compute the text of the display with
operator and number behind it. -/
lemma state_press_literal {s : Session} (hs : s.state.justComputed = true) (op : Operator)
    {n : Text} (hn : ∀ c ∈ n, Numeral.isPart c = true) :
    let t := s.state.display ++ op.glyph :: n
    (s.press (.operator op :: Key.spelled n ++ [.equals])).state =
      ⟨[], Calculation.display ⟨t, Expression.evaluate t⟩, true⟩ := by
  intro t
  have hoperator : (s.act (.operator op)).state =
      ⟨s.state.display ++ [op.glyph], s.state.display, false⟩ := by
    simp [act, State.operator, hs]
  have htyped := (press_spelled hn (s := s.act (.operator op)) (by rw [hoperator])).1
  rw [hoperator, List.append_assoc, List.singleton_append] at htyped
  rw [press_append]
  have hcompute := state_compute (s := (s.act (.operator op)).press (Key.spelled n))
    (by rw [htyped]; simp)
  rw [htyped] at hcompute
  exact hcompute

/-- **Going on from a result.**  When an operator and a number are typed behind a finite result and
the equals key is pressed, the text of the result with the two behind it is evaluated, and its value
or failure is shown.  If the result is written out in full, the operator is applied to the number
that is shown and the one typed.  In scientific form, which is the one with an `e`, mantissa and
exponent are two operands with the sign of the exponent as an operator between them. -/
theorem evaluate_display_operator {x : Float} (hx : x.isFinite = true) (op : Operator) {z : Float}
    {n : Text} (hn : Expression.IsLiteral z n) :
    let shown := Display.text x
    let t := shown ++ op.glyph :: n
    (∀ s : Session, s.state.justComputed = true → s.state.display = shown →
      (s.press (.operator op :: Key.spelled n ++ [.equals])).state =
        ⟨[], Calculation.display ⟨t, Expression.evaluate t⟩, true⟩) ∧
    ('e' ∉ shown → ∃ a, Numeral.read? shown = some a ∧
      Expression.evaluate t = (op.apply a z).mapError .invalid) ∧
    ('e' ∈ shown → ∃ (a b : Float) (mantissa digits : Text) (sign : Operator),
      Expression.IsSigned a mantissa ∧ Expression.IsLiteral b digits ∧
      (sign = .add ∨ sign = .subtract) ∧ shown = mantissa ++ 'e' :: sign.glyph :: digits ∧
      Expression.evaluate t = (Expression.joined sign op a b z).mapError .invalid) := by
  intro shown t
  have hshown : Expression.IsShown shown := Expression.isShown_text hx
  refine ⟨?_, ?_⟩
  · intro s hs hdisplay
    have hpress := state_press_literal hs op hn.isPart
    rw [hdisplay] at hpress
    exact hpress
  · clear_value shown
    cases hshown with
    | plain ht =>
      constructor
      · intro _
        exact ⟨_, ht.reads, Expression.evaluate_signed ht op hn⟩
      · intro he
        exact absurd he ht.not_mem
    | scientific sign hsign hm hd =>
      constructor
      · intro he
        exact absurd (by simp) he
      · intro _
        exact ⟨_, _, _, _, sign, hm, hd, hsign, rfl,
          Expression.evaluate_scientific hsign hm hd op hn⟩

/-- The difference of two and seven, times three. -/
theorem evaluate_negative_times_three :
    let s := run [.digit 2, .operator .subtract, .digit 7, .compute]
    (s.press (.operator .multiply :: Key.spelled "3".toList ++ [.equals])).state =
        ⟨[], Calculation.display ⟨"-5×3".toList, Expression.evaluate "-5×3".toList⟩, true⟩ ∧
      ∃ a, Numeral.read? "-5".toList = some a ∧
        Expression.evaluate "-5×3".toList = (Operator.multiply.apply a 3).mapError .invalid := by
  intro s
  have hthree : Expression.IsLiteral 3 "3".toList :=
    ⟨List.all_eq_true.1 (by decide), by decide +kernel⟩
  have hshown : Display.text (-5) = "-5".toList := by decide +kernel
  have hfive := evaluate_display_operator (x := -5) (by decide +kernel) .multiply hthree
  rw [hshown] at hfive
  obtain ⟨hpress, hplain, -⟩ := hfive
  constructor
  · exact hpress s (by decide +kernel) (by decide +kernel)
  · exact hplain (by decide)

/-- The square of a hundred thousand is shown by the numeral of ten thousand million, and one more
than it is twelve. -/
theorem evaluate_scientific_plus_one :
    let square := Key.spelled "100000".toList ++
      .operator .multiply :: Key.spelled "100000".toList ++ [.equals]
    let t := Display.text 10000000000 ++ Operator.add.glyph :: "1".toList
    Numeral.read? (Display.text 10000000000) = some 10000000000 ∧
      Expression.IsLiteral 1 "1".toList ∧
      Expression.evaluate t = .ok 12 ∧
      Expression.evaluate t ≠ (Operator.add.apply 10000000000 1).mapError EvaluationError.invalid ∧
      (initial.press square).state = ⟨[], Display.text 10000000000, true⟩ ∧
      ((initial.press square).press
        (.operator .add :: Key.spelled "1".toList ++ [.equals])).state.display = "12".toList := by
  intro square t
  have hvalue : Expression.evaluate t = .ok 12 := by decide +kernel
  refine ⟨by decide +kernel, ⟨List.all_eq_true.1 (by decide), by decide +kernel⟩, hvalue, ?_,
    by decide +kernel, by decide +kernel⟩
  intro h
  have hsum : (12 : Float) = 10000000000 + 1 := Except.ok.inj (hvalue.symm.trans h)
  exact absurd hsum (by decide +kernel)

end Session

end DeskCalculator
