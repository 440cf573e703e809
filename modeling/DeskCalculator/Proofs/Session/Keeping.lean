import DeskCalculator.Session.Basic
import Mathlib.Tactic.Lemma

/-!
# Properties that the keypad keeps

Whatever is done in a session, the text of its expression comes about in few ways: a key adds a
character at the end or takes the last one away, and a result is taken over as it is shown.
`Keeps P Q` lists them: a property `P` of expressions and a property `Q` of results for which none
of these ways leads out.  Such a pair holds in every session that a run leads to
(`Keeps.holds_run`), of the expression, of a result that is shown and of all entries of the ledger.
-/

namespace DeskCalculator

/-- No way of building an expression leads out of `P`, and all results have `Q`. -/
structure Keeps (P Q : Text → Prop) : Prop where
  nil : P []
  shown : ∀ x, Q (Display.text x)
  error : Q Display.error
  /-- A result may be the expression. -/
  result : ∀ t, Q t → P t
  dropLast : ∀ t, P t → P t.dropLast
  part : ∀ t c, P t → Numeral.isPart c = true → P (t ++ [c])
  parenthesis : ∀ t, P t → P (t ++ [if t.count ')' < t.count '(' then ')' else '('])
  /-- An operator goes on from a result. -/
  continued : ∀ t op, Q t → P (t ++ [Operator.glyph op])
  /-- An operator behind an operand. -/
  appended : ∀ t op, P t → t.getLast?.any Operator.isGlyph = false → P (t ++ [Operator.glyph op])
  /-- An operator in the place of the one typed before it. -/
  replaced : ∀ t op, P t → t.getLast?.any Operator.isGlyph = true →
    P (t.dropLast ++ [Operator.glyph op])

/-- The expression and the expressions of the ledger have `P`, and the results have `Q`. -/
structure Session.Holds (P Q : Text → Prop) (s : Session) : Prop where
  expression : P s.state.expression
  display : s.state.justComputed = true → Q s.state.display
  ledger : ∀ e ∈ s.ledger.toList, P e.expression ∧ Q e.result

namespace Keeps

variable {P Q : Text → Prop} {s : Session}

lemma holds_initial (h : Keeps P Q) : Session.initial.Holds P Q :=
  ⟨h.nil, by simp [Session.initial, State.initial], by simp [Session.initial]⟩

/-- After an edit that shows no result, only the expression has to be looked at. -/
lemma edit (hs : s.Holds P Q) {st : State} (he : P st.expression)
    (hj : st.justComputed = false) : Session.Holds P Q { s with state := st } :=
  ⟨he, fun hc => absurd hc (by simp [hj]), hs.ledger⟩

/-- A part of a number is typed behind the expression, or behind the text `t` if a result is
shown. -/
lemma typed (h : Keeps P Q) (hs : s.Holds P Q) {t : Text} (ht : P t) {c : Char}
    (hc : Numeral.isPart c = true) :
    Session.Holds P Q
      { s with
        state := .editing ((if s.state.justComputed then t else s.state.expression) ++ [c]) } := by
  refine edit hs (h.part _ c ?_ hc) rfl
  split
  · exact ht
  · exact hs.expression

lemma isPart_digitChar {n : Nat} (hn : n ≤ 9) : Numeral.isPart n.digitChar = true := by
  rw [Numeral.isPart, Nat.isDigit_digitChar, decide_eq_true (Nat.lt_succ_of_le hn), Bool.true_or]

lemma operator (h : Keeps P Q) (hs : s.Holds P Q) (op : Operator) :
    Session.Holds P Q { s with state := s.state.operator op } := by
  unfold State.operator
  split
  · rename_i hj
    exact edit hs (h.continued _ op (hs.display hj)) rfl
  · rename_i hj
    split
    · exact hs
    · refine edit hs ?_ (by simpa using hj)
      dsimp only
      split
      · rename_i hg
        exact h.replaced _ op hs.expression hg
      · rename_i hg
        exact h.appended _ op hs.expression (by simpa using hg)

lemma compute (h : Keeps P Q) (hs : s.Holds P Q) : s.compute.Holds P Q := by
  unfold Session.compute
  dsimp only
  split
  · exact hs
  · split
    · rename_i x _
      refine ⟨h.nil, fun _ => h.shown x, fun e he => ?_⟩
      rw [Ledger.toList_record, List.mem_append, List.mem_singleton] at he
      rcases he with he | rfl
      · exact hs.ledger e he
      · exact ⟨hs.expression, h.shown x⟩
    · exact ⟨h.nil, fun _ => h.error, hs.ledger⟩

lemma select (hs : s.Holds P Q) (i : Nat) : (s.act (.select i)).Holds P Q := by
  rw [Session.act, Session.select?]
  cases hi : s.ledger.get? i with
  | none => exact hs
  | some e =>
    obtain ⟨he, hr⟩ := hs.ledger e (List.mem_of_getElem? hi)
    exact ⟨he, fun _ => hr, hs.ledger⟩

/-- No action leads out of a kept property. -/
lemma holds_act (h : Keeps P Q) (hs : s.Holds P Q) (a : Action) : (s.act a).Holds P Q := by
  cases a with
  | digit n =>
    rw [Session.act, State.digit]
    split
    · exact hs
    · rename_i hn
      exact h.typed hs h.nil (isPart_digitChar (Nat.not_lt.1 hn))
  | point => exact h.typed hs (h.part [] '0' h.nil (by decide)) (by decide)
  | operator op => exact h.operator hs op
  | parenthesis =>
    refine edit hs (h.parenthesis _ ?_) rfl
    split
    · exact h.nil
    · exact hs.expression
  | backspace => exact edit hs (h.dropLast _ hs.expression) rfl
  | clear => exact edit hs h.nil rfl
  | compute => exact h.compute hs
  | function f => exact ⟨h.result _ (h.shown _), fun _ => h.shown _, hs.ledger⟩
  | clearHistory => exact ⟨hs.expression, hs.display, by simp [Session.act]⟩
  | select i => exact select hs i

/-- A kept property holds after every run. -/
lemma holds_run (h : Keeps P Q) (as : List Action) : (Session.run as).Holds P Q := by
  suffices ∀ s : Session, s.Holds P Q → (s.acts as).Holds P Q from this _ h.holds_initial
  intro s hs
  induction as generalizing s with
  | nil => exact hs
  | cons a as ih => exact ih _ (h.holds_act hs a)

end Keeps

end DeskCalculator
