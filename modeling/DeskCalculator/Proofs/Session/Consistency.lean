import DeskCalculator.Proofs.Number.DecimalText
import DeskCalculator.Proofs.Session.History

/-!
# What the display shows

Expression, display and the mark for a result are changed one by one, and yet they always belong
together.  While an expression is typed, the display shows the number at its end, if it ends with
one, and an expression that has become empty is that of a new session (`State.Typed`).  When a
result is shown, it is the text of a number, and an expression beside it is either that same text or
the one whose computation gave the result (`State.Shown`).

The second case lasts longer than the ledger: an entry that has been recalled stays on the keypad
when the ledger is emptied.  So the invariant does not look into the ledger but back at the run, for
the computation that made the entry (`Session.MadeIn`).
-/

namespace DeskCalculator

namespace Numeral

/-- The text `r` is the longest run of digits and points that `t` ends with. -/
def IsTrailingRun (t r : Text) : Prop :=
  (∀ c ∈ r, isPart c = true) ∧ ∃ front, t = front ++ r ∧ ∀ c ∈ front.getLast?, isPart c = false

lemma isTrailingRun_trailing (t : Text) : IsTrailingRun t (trailing t) := by
  constructor
  · intro c hc
    exact isPart_of_mem_trailing hc
  · refine ⟨(t.reverse.dropWhile isPart).reverse, ?_, ?_⟩
    · rw [trailing, ← List.reverse_append, List.takeWhile_append_dropWhile, List.reverse_reverse]
    · intro c hc
      rw [List.getLast?_reverse] at hc
      have hhead := List.head?_dropWhile_not isPart t.reverse
      rw [hc] at hhead
      exact hhead

/-- A text that ends with a part of a number has a run at its end. -/
lemma trailing_ne_nil {t : Text} {c : Char} (hc : c ∈ t.getLast?) (hpart : isPart c = true) :
    trailing t ≠ [] := by
  obtain ⟨front, rfl⟩ := List.getLast?_eq_some_iff.1 hc
  rw [trailing, List.reverse_append, List.reverse_singleton, List.singleton_append,
    List.takeWhile_cons_of_pos hpart]
  simp

end Numeral

namespace Session

/-- The entry is one that a computation of the run has made. -/
def MadeIn (as : List Action) (e : Entry) : Prop :=
  ∃ bs, bs ++ [.compute] <+: as ∧ entryOf? (run bs).state.expression = some e

lemma MadeIn.concat {as : List Action} {e : Entry} (h : MadeIn as e) (a : Action) :
    MadeIn (as ++ [a]) e := by
  obtain ⟨bs, hbs, he⟩ := h
  exact ⟨bs, hbs.trans (List.prefix_append as [a]), he⟩

lemma madeIn_compute {as : List Action} {e : Entry}
    (h : entryOf? (run as).state.expression = some e) : MadeIn (as ++ [.compute]) e :=
  ⟨as, List.prefix_refl _, h⟩

lemma MadeIn.exists_result {as : List Action} {e : Entry} (h : MadeIn as e) :
    ∃ x, e.result = Display.text x := by
  obtain ⟨bs, -, he⟩ := h
  obtain ⟨-, x, -, rfl⟩ := entryOf?_eq_some_iff.1 he
  exact ⟨x, rfl⟩

end Session

open Session

/-! ### While an expression is typed -/

namespace State

/-- Expression and display of a state in which no result is shown. -/
structure Typed (st : State) : Prop where
  display_ne_nil : st.display ≠ []
  eq_initial : st.expression = [] → st = .initial
  display_eq : ∀ c ∈ st.expression.getLast?, Numeral.isPart c = true →
    Numeral.IsTrailingRun st.expression st.display

lemma typed_initial : Typed .initial where
  display_ne_nil := by decide
  eq_initial := fun _ => rfl
  display_eq := by simp [initial]

lemma typed_editing {t : Text} (ht : t ≠ []) : Typed (editing t) where
  display_ne_nil := preview_ne_nil t
  eq_initial := fun h => absurd h ht
  display_eq := by
    intro c hc hpart
    have hshown : (editing t).display = Numeral.trailing t :=
      if_neg (Numeral.trailing_ne_nil hc hpart)
    rw [hshown]
    exact Numeral.isTrailingRun_trailing t

/-- An expression that ends with the glyph of an operator leaves the display as it was. -/
lemma typed_glyph {display : Text} (hd : display ≠ []) (t : Text) (op : Operator) :
    Typed ⟨t ++ [op.glyph], display, false⟩ where
  display_ne_nil := hd
  eq_initial := fun h => absurd h (List.append_ne_nil_of_right_ne_nil t (List.cons_ne_nil _ _))
  display_eq := by
    intro c hc hpart
    obtain rfl : op.glyph = c := by simpa using hc
    exact absurd hpart (by cases op <;> decide)

lemma typed_backspace (st : State) : Typed st.backspace where
  display_ne_nil := by
    rw [backspace]
    dsimp only
    split
    · exact preview_ne_nil _
    · assumption
  eq_initial := by
    intro h
    have hnil : st.expression.dropLast = [] := h
    rw [backspace, hnil]
    rfl
  display_eq := by
    intro c hc hpart
    have hshown : st.backspace.display = Numeral.trailing st.expression.dropLast :=
      if_neg (Numeral.trailing_ne_nil hc hpart)
    rw [hshown]
    exact Numeral.isTrailingRun_trailing _

/-! ### While a result is shown -/

/-- Expression and display of a state in which a result is shown. -/
structure Shown (as : List Action) (st : State) : Prop where
  exists_result : ∃ x, st.display = Display.text x
  recalled : st.expression ≠ [] →
    st.expression = st.display ∨ MadeIn as ⟨st.expression, st.display⟩

lemma Shown.concat {as : List Action} {st : State} (h : Shown as st) (a : Action) :
    Shown (as ++ [a]) st where
  exists_result := h.exists_result
  recalled := fun hne => (h.recalled hne).imp_right fun hmade => hmade.concat a

lemma Shown.display_ne_nil {as : List Action} {st : State} (h : Shown as st) :
    st.display ≠ [] := by
  obtain ⟨x, hx⟩ := h.exists_result
  rw [hx]
  exact Display.text_ne_nil x

/-- A result without an expression. -/
lemma shown_result (as : List Action) (x : Float) : Shown as ⟨[], Display.text x, true⟩ where
  exists_result := ⟨x, rfl⟩
  recalled := fun h => absurd rfl h

/-- A result that is its own expression. -/
lemma shown_function (as : List Action) (x : Float) :
    Shown as ⟨Display.text x, Display.text x, true⟩ where
  exists_result := ⟨x, rfl⟩
  recalled := fun _ => Or.inl rfl

lemma shown_entry {as : List Action} {e : Entry} (h : MadeIn as e) :
    Shown as ⟨e.expression, e.result, true⟩ where
  exists_result := h.exists_result
  recalled := fun _ => Or.inr h

end State

open State

/-! ### One action -/

namespace Session

/-- Expression, display and ledger after a run belong together. -/
structure Consistent (as : List Action) (s : Session) : Prop where
  typed : s.state.justComputed = false → s.state.Typed
  shown : s.state.justComputed = true → s.state.Shown as
  ledger : ∀ e ∈ s.ledger.toList, MadeIn as e

lemma consistent_initial : Consistent [] initial where
  typed := fun _ => typed_initial
  shown := by
    intro h
    cases h
  ledger := by simp [initial]

section

variable {as : List Action} {s : Session}

lemma Consistent.concat_ledger (h : Consistent as s) (a : Action) :
    ∀ e ∈ s.ledger.toList, MadeIn (as ++ [a]) e :=
  fun e he => (h.ledger e he).concat a

/-- An action that has no effect. -/
lemma Consistent.concat (h : Consistent as s) (a : Action) : Consistent (as ++ [a]) s where
  typed := h.typed
  shown := fun hj => (h.shown hj).concat a
  ledger := h.concat_ledger a

lemma Consistent.display_ne_nil (h : Consistent as s) : s.state.display ≠ [] := by
  cases hj : s.state.justComputed with
  | true => exact (h.shown hj).display_ne_nil
  | false => exact (h.typed hj).display_ne_nil

/-- An action after which an expression is typed. -/
lemma Consistent.edit (h : Consistent as s) (a : Action) {st : State} (ht : st.Typed)
    (hj : st.justComputed = false) : Consistent (as ++ [a]) { s with state := st } where
  typed := fun _ => ht
  shown := fun hc => absurd (hj.symm.trans hc) (by decide)
  ledger := h.concat_ledger a

/-- An action after which a result is shown. -/
lemma Consistent.result (h : Consistent as s) (a : Action) {st : State}
    (hs : st.Shown (as ++ [a])) (hj : st.justComputed = true) :
    Consistent (as ++ [a]) { s with state := st } where
  typed := fun hc => absurd (hj.symm.trans hc) (by decide)
  shown := fun _ => hs
  ledger := h.concat_ledger a

lemma Consistent.operator (h : Consistent as s) (op : Operator) :
    Consistent (as ++ [.operator op]) { s with state := s.state.operator op } := by
  unfold State.operator
  split
  · exact h.edit _ (typed_glyph h.display_ne_nil _ op) rfl
  · rename_i hj
    split
    · exact h.concat _
    · have hfalse : s.state.justComputed = false := by simpa using hj
      rw [hfalse]
      exact h.edit _ (typed_glyph h.display_ne_nil _ op) rfl

lemma Consistent.compute (h : Consistent as (run as)) :
    Consistent (as ++ [.compute]) (run as).compute := by
  by_cases hnil : (run as).state.expression = []
  · rw [compute_of_nil hnil]
    exact h.concat _
  · cases hv : Expression.evaluate (run as).state.expression with
    | error err =>
      rw [compute_of_error hnil hv, ← Display.text_notANumber]
      exact h.result _ (shown_result _ _) rfl
    | ok x =>
      have hentry : entryOf? (run as).state.expression =
          some ⟨(run as).state.expression, Display.text x⟩ :=
        entryOf?_eq_some_iff.2 ⟨hnil, x, hv, rfl⟩
      rw [compute_of_ok hnil hv]
      refine ⟨by simp, fun _ => shown_result _ x, ?_⟩
      intro e he
      rw [Ledger.toList_record, List.mem_append, List.mem_singleton] at he
      rcases he with he | rfl
      · exact h.concat_ledger _ e he
      · exact madeIn_compute hentry

lemma Consistent.select (h : Consistent as s) (i : Nat) :
    Consistent (as ++ [.select i]) (s.act (.select i)) := by
  rw [act, select?]
  cases hi : s.ledger.get? i with
  | none => exact h.concat _
  | some e =>
    have hmade : MadeIn (as ++ [.select i]) e :=
      h.concat_ledger _ e (List.mem_of_getElem? hi)
    exact h.result _ (shown_entry hmade) rfl

end

/-- Every action keeps a run consistent. -/
lemma Consistent.act {as : List Action} (h : Consistent as (run as)) (a : Action) :
    Consistent (as ++ [a]) ((run as).act a) := by
  cases a with
  | digit n =>
    rw [Session.act, State.digit]
    split
    · exact h.concat _
    · exact h.edit _ (typed_editing (by simp)) rfl
  | point => exact h.edit _ (typed_editing (by simp)) rfl
  | operator op => exact h.operator op
  | parenthesis => exact h.edit _ (typed_editing (by simp)) rfl
  | backspace => exact h.edit _ (typed_backspace _) rfl
  | clear => exact h.edit _ typed_initial rfl
  | compute => exact h.compute
  | function f => exact h.result _ (shown_function _ _) rfl
  | clearHistory => exact { h.concat _ with ledger := by simp [Session.act] }
  | select i => exact h.select i

/-! ### A run -/

lemma consistent_run (as : List Action) : Consistent as (run as) := by
  induction as using List.reverseRecOn with
  | nil => exact consistent_initial
  | append_singleton as a ih =>
    rw [run_concat]
    exact ih.act a

/-- **Expression and display belong together.**  After every run the display is not empty.  If no
result is shown, an empty expression is that of a new session, and if the expression ends with a
part of a number, the display is the whole run of digits and points at its end.  If a result is
shown, it is the text of a number, and an expression beside it is the same text, or both make up the
entry that an earlier computation of the run added to the ledger. -/
theorem display_run (as : List Action) :
    let st := (run as).state
    st.display ≠ [] ∧
    (st.justComputed = false → st.expression = [] → st = .initial) ∧
    (st.justComputed = false → ∀ c ∈ st.expression.getLast?, Numeral.isPart c = true →
      Numeral.IsTrailingRun st.expression st.display) ∧
    (st.justComputed = true → ∃ x, st.display = Display.text x) ∧
    (st.justComputed = true → st.expression ≠ [] → st.expression = st.display ∨
      ∃ bs, bs ++ [.compute] <+: as ∧
        (run (bs ++ [.compute])).ledger.toList =
          (run bs).ledger.toList ++ [⟨st.expression, st.display⟩]) := by
  intro st
  have h : Consistent as (run as) := consistent_run as
  refine ⟨h.display_ne_nil, ?_, ?_, ?_, ?_⟩
  · intro hj
    exact (h.typed hj).eq_initial
  · intro hj
    exact (h.typed hj).display_eq
  · intro hj
    exact (h.shown hj).exists_result
  · intro hj hne
    rcases (h.shown hj).recalled hne with heq | ⟨bs, hbs, hentry⟩
    · exact Or.inl heq
    · refine Or.inr ⟨bs, hbs, ?_⟩
      rw [run_concat, Session.act, toList_ledger_compute, hentry]
      rfl

/-- An expression that has been taken back to nothing, one that ends with a number, and an entry
that has been recalled before the ledger was emptied. -/
theorem display_of_sum :
    let sum : List Action := [.digit 1, .operator .add, .digit 2]
    (run (sum ++ [.backspace, .backspace, .backspace])).state = .initial ∧
      Numeral.IsTrailingRun (run sum).state.expression (run sum).state.display ∧
      let as := sum ++ [.compute, .select 0, .clearHistory]
      (∃ x, (run as).state.display = Display.text x) ∧
        ∃ bs, bs ++ [.compute] <+: as ∧
          (run (bs ++ [.compute])).ledger.toList = (run bs).ledger.toList ++
            [⟨(run as).state.expression, (run as).state.display⟩] := by
  intro sum
  obtain ⟨-, hempty, -⟩ := display_run (sum ++ [.backspace, .backspace, .backspace])
  obtain ⟨-, -, htrailing, -⟩ := display_run sum
  obtain ⟨-, -, -, hresult, hrecalled⟩ := display_run (sum ++ [.compute, .select 0, .clearHistory])
  refine ⟨hempty rfl rfl, htrailing rfl '2' (by decide) (by decide), ?_, ?_⟩
  · exact hresult (by decide +kernel)
  · exact (hrecalled (by decide +kernel) (by decide +kernel)).resolve_left (by decide +kernel)

end Session

end DeskCalculator
