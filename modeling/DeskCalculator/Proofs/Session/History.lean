import DeskCalculator.Session.Basic
import Mathlib.Data.List.Basic
import Mathlib.Data.List.Induction

/-!
# What the ledger records

The ledger after a run is determined by the computations of the run: `recorded` lists the
positions of the run where an expression with a value is computed and after which the ledger
is not emptied any more, and takes the entry that each of them makes.  The main statement is
that the ledger is exactly this list, from which follows that every entry can be selected and
computed again, with the same result.
-/

namespace DeskCalculator

namespace Session

/-- The entry that computing the expression `t` makes, if there is an expression and it has a
value. -/
def entryOf? (t : Text) : Option Entry :=
  if t = [] then none
  else (Expression.evaluate t).toOption.map fun x => ⟨t, Display.text x⟩

/-- The entries that a run makes and does not clear again, in the order in which they are
made. -/
def recorded (as : List Action) : List Entry :=
  ((List.range as.length).filter fun i =>
      as[i]? = some .compute ∧ .clearHistory ∉ as.drop i).filterMap fun i =>
    entryOf? (run (as.take i)).state.expression

lemma run_concat (as : List Action) (a : Action) : run (as ++ [a]) = (run as).act a :=
  acts_append initial as [a]

/-! ### One action -/

lemma compute_of_nil {s : Session} (h : s.state.expression = []) : s.compute = s :=
  if_pos h

lemma compute_of_ok {s : Session} {x : Float} (h : s.state.expression ≠ [])
    (hx : Expression.evaluate s.state.expression = .ok x) :
    s.compute = ⟨⟨[], Display.text x, true⟩,
      s.ledger.record ⟨s.state.expression, Display.text x⟩⟩ := by
  rw [compute, if_neg h, hx]

lemma compute_of_error {s : Session} {err : EvaluationError} (h : s.state.expression ≠ [])
    (herr : Expression.evaluate s.state.expression = .error err) :
    s.compute = { s with state := ⟨[], Display.error, true⟩ } := by
  rw [compute, if_neg h, herr]

lemma entryOf?_eq_some_iff {t : Text} {e : Entry} :
    entryOf? t = some e ↔
      t ≠ [] ∧ ∃ x, Expression.evaluate t = .ok x ∧ e = ⟨t, Display.text x⟩ := by
  unfold entryOf?
  split
  · simp_all
  · cases Expression.evaluate t <;> simp_all [Except.toOption, eq_comm]

lemma entryOf?_eq_none_iff {t : Text} :
    entryOf? t = none ↔ t = [] ∨ ∃ err, Expression.evaluate t = .error err := by
  unfold entryOf?
  split
  · simp_all
  · cases Expression.evaluate t <;> simp_all [Except.toOption]

lemma ledger_compute_of_none {s : Session} (h : entryOf? s.state.expression = none) :
    s.compute.ledger = s.ledger := by
  by_cases hnil : s.state.expression = []
  · rw [compute_of_nil hnil]
  · obtain ⟨err, herr⟩ := (entryOf?_eq_none_iff.1 h).resolve_left hnil
    rw [compute_of_error hnil herr]

lemma ledger_compute_of_some {s : Session} {e : Entry} (h : entryOf? s.state.expression = some e) :
    s.compute.ledger = s.ledger.record e := by
  obtain ⟨hne, x, hx, rfl⟩ := entryOf?_eq_some_iff.1 h
  rw [compute_of_ok hne hx]

/-- Computing adds the entry that the expression makes. -/
lemma toList_ledger_compute (s : Session) :
    s.compute.ledger.toList = s.ledger.toList ++ (entryOf? s.state.expression).toList := by
  cases h : entryOf? s.state.expression with
  | none => rw [ledger_compute_of_none h, Option.toList_none, List.append_nil]
  | some e => rw [ledger_compute_of_some h, Ledger.toList_record, Option.toList_some]

/-- Only computing and emptying the ledger change it. -/
lemma ledger_act (s : Session) {a : Action} (hc : a ≠ .compute) (he : a ≠ .clearHistory) :
    (s.act a).ledger = s.ledger := by
  cases a with
  | compute => exact absurd rfl hc
  | clearHistory => exact absurd rfl he
  | select i =>
    rw [act, select?]
    cases s.ledger.get? i <;> rfl
  | _ => rfl

/-- Selecting an entry and computing it again shows its result and adds an equal entry. -/
lemma compute_select {s : Session} {i : Nat} {e : Entry} (hi : s.ledger.get? i = some e)
    (he : entryOf? e.expression = some e) :
    ((s.act (.select i)).act .compute).state.display = e.result ∧
      ((s.act (.select i)).act .compute).ledger.toList = s.ledger.toList ++ [e] := by
  have hsel : s.act (.select i) = { s with state := ⟨e.expression, e.result, true⟩ } := by
    rw [act, select?, hi]
    rfl
  obtain ⟨hne, x, hx, heq⟩ := entryOf?_eq_some_iff.1 he
  have hcomp : (s.act (.select i)).compute =
      ⟨⟨[], Display.text x, true⟩, s.ledger.record ⟨e.expression, Display.text x⟩⟩ := by
    rw [hsel]
    exact compute_of_ok hne hx
  rw [act, hcomp, ← heq]
  exact ⟨(congrArg Entry.result heq).symm, Ledger.toList_record s.ledger e⟩

/-! ### A run -/

/-- The part of a position of a run is the same when the run goes on, unless the ledger is
emptied next. -/
lemma getElem?_and_drop_concat {as : List Action} {i : Nat} (hi : i < as.length) (a : Action) :
    ((as ++ [a])[i]? = some .compute ∧ .clearHistory ∉ (as ++ [a]).drop i) ↔
      (as[i]? = some .compute ∧ .clearHistory ∉ as.drop i) ∧ a ≠ .clearHistory := by
  rw [List.getElem?_append_left hi, List.drop_append_of_le_length (Nat.le_of_lt hi)]
  simp only [List.mem_append, List.mem_singleton, not_or, and_assoc, ne_eq, eq_comm]

/-- No position before the ledger is emptied counts any more. -/
lemma filter_concat_clearHistory (as : List Action) :
    ((List.range as.length).filter fun i =>
      (as ++ [Action.clearHistory])[i]? = some .compute ∧
        .clearHistory ∉ (as ++ [Action.clearHistory]).drop i) = [] := by
  refine List.filter_eq_nil_iff.2 fun i hi => ?_
  rw [decide_eq_true_eq, getElem?_and_drop_concat (List.mem_range.1 hi)]
  exact fun h => h.2 rfl

/-- The positions of a run still count, with the same entries, when any other action follows. -/
lemma filterMap_filter_concat (as : List Action) {a : Action} (ha : a ≠ .clearHistory) :
    (((List.range as.length).filter fun i =>
      (as ++ [a])[i]? = some .compute ∧ .clearHistory ∉ (as ++ [a]).drop i).filterMap fun i =>
        entryOf? (run ((as ++ [a]).take i)).state.expression) = recorded as := by
  have hfilter : ((List.range as.length).filter fun i =>
      (as ++ [a])[i]? = some .compute ∧ .clearHistory ∉ (as ++ [a]).drop i) =
      (List.range as.length).filter fun i =>
        as[i]? = some .compute ∧ .clearHistory ∉ as.drop i := by
    refine List.filter_congr fun i hi => ?_
    rw [decide_eq_decide, getElem?_and_drop_concat (List.mem_range.1 hi)]
    exact and_iff_left ha
  rw [hfilter, recorded]
  refine List.filterMap_congr fun i hi => ?_
  rw [List.take_append_of_le_length
    (Nat.le_of_lt (List.mem_range.1 (List.mem_of_mem_filter hi)))]

/-- The entries of a run with one action more. -/
lemma recorded_concat (as : List Action) (a : Action) :
    recorded (as ++ [a]) =
      if a = .clearHistory then []
      else if a = .compute then
        recorded as ++ (entryOf? (run as).state.expression).toList
      else recorded as := by
  have htake : (as ++ [a]).take as.length = as := List.take_left
  rw [recorded, List.length_append, List.length_singleton, List.range_succ, List.filter_append,
    List.filterMap_append]
  by_cases ha : a = .clearHistory
  · subst ha
    rw [filter_concat_clearHistory, if_pos rfl, List.filter_cons_of_neg (by simp)]
    rfl
  · rw [filterMap_filter_concat as ha, if_neg ha]
    by_cases hc : a = .compute
    · rw [if_pos hc, List.filter_cons_of_pos (by simp [hc]), List.filter_nil,
        List.filterMap_cons, htake]
      cases entryOf? (run as).state.expression <;> rfl
    · rw [if_neg hc, List.filter_cons_of_neg (by simp [hc]), List.filter_nil,
        List.filterMap_nil, List.append_nil]

/-- The ledger after a run holds the entries that the run records. -/
lemma toList_ledger_run (as : List Action) : (run as).ledger.toList = recorded as := by
  induction as using List.reverseRecOn with
  | nil => rfl
  | append_singleton as a ih =>
    rw [run_concat, recorded_concat]
    by_cases he : a = .clearHistory
    · rw [if_pos he, he]
      rfl
    · rw [if_neg he]
      by_cases hc : a = .compute
      · rw [if_pos hc, hc, act, toList_ledger_compute, ih]
      · rw [if_neg hc, ledger_act _ hc he, ih]

/-- Every entry of a ledger is the one that computing its expression makes. -/
lemma entryOf?_of_mem_ledger {as : List Action} {e : Entry} (he : e ∈ (run as).ledger.toList) :
    entryOf? e.expression = some e := by
  rw [toList_ledger_run, recorded] at he
  obtain ⟨i, -, hi⟩ := List.mem_filterMap.1 he
  obtain ⟨-, x, -, rfl⟩ := entryOf?_eq_some_iff.1 hi
  exact hi

/-- **The ledger is the record of the computations.**  After every run it holds, in order, an
entry for each computation since it was last emptied whose expression is there and has a
value, with that expression and the text of the value.  Computations that fail and all other
actions leave it as it is.  So every entry has an expression that still has the value shown
beside it, and to select an entry and compute it again shows its result and adds an equal
entry. -/
theorem ledger_run (as : List Action) :
    (run as).ledger.toList = recorded as ∧
    (∀ a, a ≠ .clearHistory →
      (a = .compute → (run as).state.expression = [] ∨
        ∃ err, Expression.evaluate (run as).state.expression = .error err) →
      ((run as).act a).ledger = (run as).ledger) ∧
    (∀ e ∈ (run as).ledger.toList, e.expression ≠ [] ∧
      ∃ x, Expression.evaluate e.expression = .ok x ∧ e.result = Display.text x) ∧
    ∀ (i : Nat) (hi : i < (run as).ledger.toList.length),
      let e := (run as).ledger.toList[i]
      let s := ((run as).act (.select i)).act .compute
      s.state.display = e.result ∧ s.ledger.toList = (run as).ledger.toList ++ [e] := by
  refine ⟨toList_ledger_run as, fun a he hc => ?_, fun e he => ?_, fun i hi => ?_⟩
  · by_cases ha : a = .compute
    · rw [ha]
      exact ledger_compute_of_none (entryOf?_eq_none_iff.2 (hc ha))
    · exact ledger_act _ ha he
  · obtain ⟨hne, x, hx, heq⟩ := entryOf?_eq_some_iff.1 (entryOf?_of_mem_ledger he)
    exact ⟨hne, x, hx, congrArg Entry.result heq⟩
  · exact compute_select (List.getElem?_eq_getElem hi)
      (entryOf?_of_mem_ledger (List.getElem_mem hi))

/-- After `1+2` has been computed, its entry can be selected and computed again. -/
theorem ledger_of_sum :
    let as : List Action := [.digit 1, .operator .add, .digit 2, .compute]
    let s := ((run as).act (.select 0)).act .compute
    ((run as).act .clear).ledger = (run as).ledger ∧
      ∃ e ∈ (run as).ledger.toList, s.state.display = e.result ∧
        s.ledger.toList = (run as).ledger.toList ++ [e] := by
  intro as s
  have hi : 0 < (run as).ledger.toList.length := by decide +kernel
  obtain ⟨-, hkept, -, hselect⟩ := ledger_run as
  exact ⟨hkept .clear (by simp) (by simp), _, List.getElem_mem hi, hselect 0 hi⟩

end Session

end DeskCalculator
