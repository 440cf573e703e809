import DeskCalculator.Proofs.Expression.NegativeRoot
import DeskCalculator.Proofs.Session.Chaining
import DeskCalculator.Proofs.Text.Words

/-!
# One evaluation and a session

A text is evaluated without the blanks at its ends.  They would not count anyway: in front they are
copied before anything is read, and behind they can neither close a root group that is open nor be
squared (`evaluate_append_blank`, `evaluate_blank_append`).  A text may therefore be trimmed or
not, and a single evaluation gives the number or the error that computing the text in a session
gives (`ofText_agrees_with_compute`).
-/

namespace DeskCalculator

namespace Expression

open Numeral (isPart)
open Text (isBlank)

/-! ### Blanks -/

lemma isPart_of_isBlank {c : Char} (hc : isBlank c = true) : isPart c = false := by
  have hdigits : ∀ d : Fin 10, isBlank d.val.digitChar = false := by decide
  refine Bool.eq_false_iff.2 fun hpart => ?_
  rcases Bool.or_eq_true_iff.1 hpart with hdigit | hpoint
  · obtain ⟨d, rfl⟩ := Key.exists_digitChar hdigit
    exact absurd hc (by rw [hdigits d]; exact Bool.false_ne_true)
  · rw [beq_iff_eq.1 hpoint] at hc
    exact absurd hc (by decide)

lemma ne_of_isBlank {c d : Char} (hc : isBlank c = true) (hd : isBlank d = false) : c ≠ d := by
  rintro rfl
  exact absurd hc (by rw [hd]; exact Bool.false_ne_true)

lemma isPassed_of_isBlank {c : Char} (hc : isBlank c = true) : IsPassed c := by
  have hne : ∀ d, isBlank d = false → c ≠ d := fun d hd => ne_of_isBlank hc hd
  refine ⟨isPart_of_isBlank hc, ?_, hne squareSign (by decide)⟩
  unfold Token.ofChar?
  split
  case h_7 => rfl
  all_goals exact absurd hc (by decide)

lemma canonicalChar_of_isBlank {c : Char} (hc : isBlank c = true) : canonicalChar c = [c] :=
  Token.canonicalChar_of_ne (ne_of_isBlank hc (by decide)) (ne_of_isBlank hc (by decide))
    (ne_of_isBlank hc (by decide))

section

variable {b : Text}

lemma not_mem_of_isBlank (hb : ∀ c ∈ b, isBlank c = true) {d : Char} (hd : isBlank d = false) :
    d ∉ b :=
  fun hmem => ne_of_isBlank (hb d hmem) hd rfl

/-! ### Blanks behind a text -/

/-- Without parentheses, no text behind a group changes where the group ends. -/
lemma splitClosing_append_of_not_mem (hclosing : ')' ∉ b) (opened : Nat) (t : Text) :
    splitClosing opened (t ++ b) =
      (splitClosing opened t).map fun (inner, rest) => (inner, rest ++ b) := by
  have hnone : ∀ opened, splitClosing opened b = none := by
    intro opened
    refine Option.eq_none_iff_forall_ne_some.2 fun ⟨inner, rest⟩ h => hclosing ?_
    rw [eq_of_splitClosing h]
    simp
  rcases splitClosing_append_cases opened t with ⟨inner, rest, -, hclosed⟩ | ⟨opened', hopen⟩
  · have ht := hclosed []
    rw [List.append_nil, List.append_nil] at ht
    rw [hclosed, ht]
    rfl
  · have ht := hopen []
    rw [List.append_nil] at ht
    rw [hopen, ht, hnone]
    rfl

lemma group?_append_of_not_mem (hopening : '(' ∉ b) (hclosing : ')' ∉ b) (t : Text) :
    group? (t ++ b) = (group? t).map fun (inner, rest) => (inner, rest ++ b) := by
  rcases t with _ | ⟨c, t⟩
  · rcases b with _ | ⟨d, b⟩
    · rfl
    · exact group?_eq_none_of_head (fun hd => hopening (by rw [hd]; exact List.mem_cons_self)) b
  by_cases hc : c = '('
  · rw [hc, List.cons_append, group?, group?, splitClosing_append_of_not_mem hclosing,
      Option.filter_map]
    rfl
  · rw [List.cons_append, group?_eq_none_of_head hc, group?_eq_none_of_head hc]
    rfl

lemma arithmetic_append_blank (hb : ∀ c ∈ b, isBlank c = true) (t : Text) :
    arithmetic (t ++ b) = arithmetic t := by
  by_cases hne : b = []
  · rw [hne, List.append_nil]
  have hpassed := arithmetic_append_passed (fun c hc => isPassed_of_isBlank (hb c hc)) hne t []
  rw [List.append_nil] at hpassed
  rw [hpassed, arithmetic]
  refine congrArg (squares t >>= ·) (funext fun u => ?_)
  exact congrArg value (List.append_nil (Token.scan u))

/-- Whatever has become of a text, blanks behind it do not count. -/
lemma valueFrom_append_blank (hb : ∀ c ∈ b, isBlank c = true) (done t : Text) :
    valueFrom done (t ++ b) = valueFrom done t := by
  have hroot : rootSign ∉ b := not_mem_of_isBlank hb (by decide)
  have hgroup := group?_append_of_not_mem (not_mem_of_isBlank hb (by decide) : '(' ∉ b)
    (not_mem_of_isBlank hb (by decide))
  fun_induction pieces t generalizing done with
  | case1 =>
    rw [List.nil_append, valueFrom, valueFrom, expandRoots_eq_self hroot, expandRoots_nil]
    exact (arithmetic_append_blank hb done).trans
      (congrArg arithmetic (List.append_nil done).symm)
  | case2 t inner rest h ih =>
    have hsome : group? (t ++ b) = some (inner, rest ++ b) := by
      rw [hgroup, h]
      rfl
    rw [List.cons_append, valueFrom_root_of_some hsome, valueFrom_root_of_some h]
    exact congrArg (evaluate inner >>= ·) (funext fun x => ih _)
  | case3 t h ih =>
    have hnone : group? (t ++ b) = none := by
      rw [hgroup, h]
      rfl
    rw [List.cons_append, valueFrom_root_of_none hnone, valueFrom_root_of_none h, ih]
  | case4 c t hc ih =>
    rw [List.cons_append, valueFrom_cons_of_ne hc, valueFrom_cons_of_ne hc, ih]

lemma canonical_of_isBlank (hb : ∀ c ∈ b, isBlank c = true) : canonical b = b :=
  canonical_eq_self fun c hc => canonicalChar_of_isBlank (hb c hc)

lemma evaluate_append_blank (hb : ∀ c ∈ b, isBlank c = true) (t : Text) :
    evaluate (t ++ b) = evaluate t := by
  have hvalue := valueFrom_append_blank hb [] (canonical t)
  rw [evaluate_eq, evaluate_eq, canonical_append, canonical_of_isBlank hb]
  exact congrArg (Except.mapError EvaluationError.invalid) hvalue

/-! ### Blanks in front of a text -/

lemma arithmetic_blank_append (hb : ∀ c ∈ b, isBlank c = true) (t : Text) :
    arithmetic (b ++ t) = arithmetic t := by
  by_cases hne : b = []
  · rw [hne, List.nil_append]
  · exact arithmetic_append_passed (fun c hc => isPassed_of_isBlank (hb c hc)) hne [] t

lemma evaluate_blank_append (hb : ∀ c ∈ b, isBlank c = true) (t : Text) :
    evaluate (b ++ t) = evaluate t := by
  rw [evaluate_eq, evaluate_eq, canonical_append, canonical_of_isBlank hb,
    expandRoots_append_of_not_mem (not_mem_of_isBlank hb (by decide)), bind_assoc]
  refine congrArg (fun r => Except.mapError EvaluationError.invalid r) ?_
  refine congrArg (expandRoots (canonical t) >>= ·) (funext fun out => ?_)
  exact arithmetic_blank_append hb out

/-- Blanks on both sides of a text do not count. -/
lemma evaluate_between_blanks {b' : Text} (hb : ∀ c ∈ b, isBlank c = true)
    (hb' : ∀ c ∈ b', isBlank c = true) (t : Text) : evaluate (b ++ (t ++ b')) = evaluate t := by
  rw [evaluate_blank_append hb, evaluate_append_blank hb']

lemma evaluate_trim (t : Text) : evaluate t.trim = evaluate t := by
  obtain ⟨b, b', hb, hb', ht⟩ := Text.exists_blanks_trim t
  conv_rhs => rw [ht]
  exact (evaluate_between_blanks hb hb' t.trim).symm

end

end Expression

namespace Session

open Expression (evaluate evaluate_trim evaluate_between_blanks)
open Text (isBlank)

lemma outcome_ofText (t : Text) : (Calculation.ofText t).outcome = evaluate t := evaluate_trim t

lemma succeeds_ofText_iff (t : Text) :
    (Calculation.ofText t).succeeds = true ↔ ∃ x, evaluate t = .ok x := by
  rw [Calculation.succeeds, outcome_ofText]
  cases evaluate t with
  | ok x => exact ⟨fun _ => ⟨x, rfl⟩, fun _ => rfl⟩
  | error e => exact ⟨nofun, nofun⟩

/-- What a single evaluation shows depends on the value of the text alone. -/
lemma display_ofText (t u : Text) (h : evaluate t = evaluate u) :
    (Calculation.ofText t).display = Calculation.display ⟨u, evaluate u⟩ := by
  rw [Calculation.display, outcome_ofText, h, Calculation.display]

/-- An entry is added exactly if the expression has a value. -/
lemma toList_compute_eq_concat_iff {s : Session} (hs : s.state.expression ≠ []) (e : Entry) :
    s.compute.ledger.toList = s.ledger.toList ++ [e] ↔
      ∃ x, evaluate s.state.expression = .ok x ∧ e = ⟨s.state.expression, Display.text x⟩ := by
  rw [toList_ledger_compute, List.append_right_inj, Option.toList_eq_singleton_iff,
    entryOf?_eq_some_iff, and_iff_right hs]

/-- **A single evaluation and a session agree.**  A text has the same value, or the same error, with
the blanks at its ends and without them, and a single evaluation of the text gives that value or
error; it succeeds exactly if there is a value.  When the expression of a session is evaluated with
any blanks around it, what is shown is what computing it in the session shows, and the evaluation
succeeds exactly if the computation adds an entry to the ledger.  The entry then is the expression
with what is shown. -/
theorem ofText_agrees_with_compute :
    (∀ t : Text, evaluate t.trim = evaluate t ∧ (Calculation.ofText t).outcome = evaluate t ∧
      ((Calculation.ofText t).succeeds = true ↔ ∃ x, evaluate t = .ok x)) ∧
    ∀ (s : Session) (b b' : Text), s.state.expression ≠ [] → (∀ c ∈ b, isBlank c = true) →
      (∀ c ∈ b', isBlank c = true) →
      let c := Calculation.ofText (b ++ (s.state.expression ++ b'))
      c.display = s.compute.state.display ∧
      (c.succeeds = true ↔ ∃ e, s.compute.ledger.toList = s.ledger.toList ++ [e]) ∧
      ∀ e, s.compute.ledger.toList = s.ledger.toList ++ [e] →
        e = ⟨s.state.expression, c.display⟩ := by
  refine ⟨fun t => ⟨evaluate_trim t, outcome_ofText t, succeeds_ofText_iff t⟩, ?_⟩
  intro s b b' hs hb hb' c
  have hvalue : evaluate (b ++ (s.state.expression ++ b')) = evaluate s.state.expression :=
    evaluate_between_blanks hb hb' _
  have hdisplay : c.display = s.compute.state.display := by
    rw [state_compute hs]
    exact display_ofText _ _ hvalue
  refine ⟨hdisplay, ?_, ?_⟩
  · rw [succeeds_ofText_iff, hvalue]
    simp only [toList_compute_eq_concat_iff hs]
    constructor
    · rintro ⟨x, hx⟩
      exact ⟨_, x, hx, rfl⟩
    · rintro ⟨e, x, hx, -⟩
      exact ⟨x, hx⟩
  · intro e he
    obtain ⟨x, hx, rfl⟩ := (toList_compute_eq_concat_iff hs e).1 he
    rw [hdisplay, compute_of_ok hs hx]

/-- The keys of `2+2` and of `2÷0`, with a tabulator in front and a wide space behind. -/
theorem ofText_agrees_for_sum_and_quotient :
    (let s := run [.digit 2, .operator .add, .digit 2]
     (Calculation.ofText "\t2+2\u2003".toList).display = s.compute.state.display ∧
      (Calculation.ofText "\t2+2\u2003".toList).succeeds = true) ∧
    (let s := run [.digit 2, .operator .divide, .digit 0]
     (Calculation.ofText "\t2÷0\u2003".toList).display = s.compute.state.display ∧
      (Calculation.ofText "\t2÷0\u2003".toList).succeeds = false) := by
  have hblank : ∀ c ∈ ['\t'], isBlank c = true := by simp; decide
  have hwide : ∀ c ∈ ['\u2003'], isBlank c = true := by simp; decide
  constructor
  · intro s
    obtain ⟨hdisplay, hsucceeds, -⟩ := ofText_agrees_with_compute.2 s ['\t'] ['\u2003']
      (by decide +kernel) hblank hwide
    exact ⟨hdisplay, hsucceeds.2 ⟨⟨"2+2".toList, "4".toList⟩, by decide +kernel⟩⟩
  · intro s
    obtain ⟨hdisplay, hsucceeds, -⟩ := ofText_agrees_with_compute.2 s ['\t'] ['\u2003']
      (by decide +kernel) hblank hwide
    refine ⟨hdisplay, Bool.eq_false_iff.2 fun h => ?_⟩
    obtain ⟨e, he⟩ := hsucceeds.1 h
    have hempty : s.compute.ledger.toList = [] := by decide +kernel
    rw [hempty] at he
    exact absurd he (by simp)

end Session

end DeskCalculator
