import DeskCalculator.Proofs.Expression.Balance
import DeskCalculator.Proofs.Expression.Literal
import DeskCalculator.Proofs.Expression.Scanner

/-!
# Which error an evaluation ends with

A text can be wrong in several places at once, and the order of the passes over it decides which
fault is reported.  Root groups come first: the leftmost of them that fails settles the matter, and
its error is that of the whole text (`expandRoots_eq_error_iff`).  Then come the squares, and only
when both passes have gone through does the value of the tokens count.

An error is noted as that of an invalid expression once, however deeply the root groups are nested
(`evaluate_notedOnce`): an error that comes out of a group has the note already, and every other one
starts without it.
-/

namespace DeskCalculator

namespace EvaluationError

/-- The error is that of an invalid expression around an error that is not. -/
def NotedOnce (e : EvaluationError) : Prop :=
  ∃ c : EvaluationError, e = .invalidExpression c ∧ c.isInvalidExpression = false

lemma NotedOnce.invalid_eq {e : EvaluationError} (h : e.NotedOnce) : e.invalid = e := by
  obtain ⟨c, rfl, -⟩ := h
  rfl

lemma invalid_of_not {e : EvaluationError} (h : e.isInvalidExpression = false) :
    e.invalid = .invalidExpression e := by
  rw [invalid, h]
  rfl

lemma rootCause_of_not {e : EvaluationError} (h : e.isInvalidExpression = false) :
    e.rootCause = e := by
  cases e with
  | invalidExpression c => cases h
  | _ => rfl

lemma kind_ne (e : EvaluationError) : e.kind ≠ "invalid_expression".toList := by
  have hroot := isInvalidExpression_rootCause e
  unfold kind
  split
  case h_6 c hc =>
    rw [hc] at hroot
    cases hroot
  all_goals decide

end EvaluationError

open EvaluationError

namespace Expression

/-! ### Root groups -/

/-- The text inside of a root group. -/
def Piece.inner? : Piece → Option Text
  | .plain _ => none
  | .root inner => some inner

/-- The texts inside of the root groups of a text, from left to right.  A group inside of another
one is not among them. -/
def rootTexts (t : Text) : List Text := (pieces t).filterMap Piece.inner?

/-- The text inside of a root group has fewer root signs than the text around it. -/
lemma count_lt_of_mem_rootTexts {t u : Text} (h : u ∈ rootTexts (canonical t)) :
    u.count rootSign < t.count rootSign := by
  obtain ⟨p, hp, hinner⟩ := List.mem_filterMap.1 h
  obtain rfl : p = .root u := by
    cases p <;> cases hinner
    rfl
  have hlt := count_lt_of_mem_pieces hp
  rwa [count_canonical_rootSign] at hlt

/-- The leftmost of some texts that has no value fails with the error `e`. -/
def FirstFailure (us : List Text) (e : EvaluationError) : Prop :=
  ∃ before inner after, us = before ++ inner :: after ∧ (∀ u ∈ before, ∃ x, evaluate u = .ok x) ∧
    evaluate inner = .error e

lemma not_firstFailure_nil (e : EvaluationError) : ¬ FirstFailure [] e := by
  rintro ⟨before, inner, after, h, -⟩
  simp at h

lemma firstFailure_cons_of_error {u : Text} {e₀ : EvaluationError} (hu : evaluate u = .error e₀)
    (us : List Text) (e : EvaluationError) : FirstFailure (u :: us) e ↔ e₀ = e := by
  constructor
  · rintro ⟨before, inner, after, h, hok, herr⟩
    rcases before with _ | ⟨v, before⟩
    · obtain ⟨rfl, -⟩ := List.cons.inj h
      rw [hu] at herr
      exact Except.error.inj herr
    · obtain ⟨rfl, -⟩ := List.cons.inj h
      obtain ⟨x, hx⟩ := hok u List.mem_cons_self
      rw [hu] at hx
      cases hx
  · rintro rfl
    exact ⟨[], u, us, rfl, by simp, hu⟩

lemma firstFailure_cons_of_ok {u : Text} {x : Float} (hu : evaluate u = .ok x) (us : List Text)
    (e : EvaluationError) : FirstFailure (u :: us) e ↔ FirstFailure us e := by
  constructor
  · rintro ⟨before, inner, after, h, hok, herr⟩
    rcases before with _ | ⟨v, before⟩
    · obtain ⟨rfl, -⟩ := List.cons.inj h
      rw [hu] at herr
      cases herr
    · obtain ⟨rfl, rfl⟩ := List.cons.inj h
      exact ⟨before, inner, after, rfl, fun v hv => hok v (List.mem_cons_of_mem u hv), herr⟩
  · rintro ⟨before, inner, after, rfl, hok, herr⟩
    refine ⟨u :: before, inner, after, rfl, ?_, herr⟩
    intro v hv
    rcases List.mem_cons.1 hv with rfl | hv
    · exact ⟨x, hu⟩
    · exact hok v hv

/-- All of some texts have values, or one of them is the first that has none. -/
lemma ok_or_firstFailure (us : List Text) :
    (∀ u ∈ us, ∃ x, evaluate u = .ok x) ∨ ∃ e, FirstFailure us e := by
  induction us with
  | nil => exact Or.inl (by simp)
  | cons u us ih =>
    cases hu : evaluate u with
    | error e => exact Or.inr ⟨e, (firstFailure_cons_of_error hu us e).2 rfl⟩
    | ok x =>
      rcases ih with hok | ⟨e, he⟩
      · refine Or.inl fun v hv => ?_
        rcases List.mem_cons.1 hv with rfl | hv
        · exact ⟨x, hu⟩
        · exact hok v hv
      · exact Or.inr ⟨e, (firstFailure_cons_of_ok hu us e).2 he⟩

lemma FirstFailure.append {us : List Text} {e : EvaluationError} (h : FirstFailure us e)
    (vs : List Text) : FirstFailure (us ++ vs) e := by
  obtain ⟨before, inner, after, rfl, hbefore, he⟩ := h
  exact ⟨before, inner, after ++ vs, by simp, hbefore, he⟩

lemma ok_eq_error_congr {α β : Type} (a : α) (b : β) (e : EvaluationError) :
    (Except.ok a : Except EvaluationError α) = .error e ↔
      (Except.ok b : Except EvaluationError β) = .error e := by
  simp

lemma mapM_expand_eq_error_iff (ps : List Piece) (e : EvaluationError) :
    ps.mapM Piece.expand = .error e ↔ FirstFailure (ps.filterMap Piece.inner?) e := by
  induction ps with
  | nil =>
    constructor
    · intro h
      cases h
    · intro h
      exact absurd h (not_firstFailure_nil e)
  | cons p ps ih =>
    rw [List.mapM_cons]
    cases p with
    | plain c =>
      rw [List.filterMap_cons_none rfl, ← ih]
      cases ps.mapM Piece.expand with
      | error e' => exact Iff.rfl
      | ok parts => exact ok_eq_error_congr _ _ e
    | root inner =>
      rw [List.filterMap_cons_some (show Piece.inner? (.root inner) = some inner from rfl)]
      cases hinner : evaluate inner with
      | error e₀ =>
        rw [firstFailure_cons_of_error hinner, Piece.expand, hinner]
        exact ⟨Except.error.inj, congrArg Except.error⟩
      | ok x =>
        rw [firstFailure_cons_of_ok hinner, ← ih, Piece.expand, hinner]
        cases ps.mapM Piece.expand with
        | error e' => exact Iff.rfl
        | ok parts => exact ok_eq_error_congr _ _ e

/-- **The leftmost group that fails decides.** -/
lemma expandRoots_eq_error_iff (t : Text) (e : EvaluationError) :
    expandRoots t = .error e ↔ FirstFailure (rootTexts t) e := by
  rw [rootTexts, ← mapM_expand_eq_error_iff, expandRoots]
  cases (pieces t).mapM Piece.expand with
  | error e' => simp only [bind, Except.bind, Except.error.injEq]
  | ok parts => exact ok_eq_error_congr _ _ e

lemma exists_expandRoots_eq_ok {t : Text} (h : ∀ u ∈ rootTexts t, ∃ x, evaluate u = .ok x) :
    ∃ out, expandRoots t = .ok out := by
  cases hout : expandRoots t with
  | ok out => exact ⟨out, rfl⟩
  | error e =>
    obtain ⟨before, inner, after, heq, -, herr⟩ := (expandRoots_eq_error_iff t e).1 hout
    obtain ⟨x, hx⟩ := h inner (by rw [heq]; simp)
    rw [herr] at hx
    cases hx

/-! ### Root groups and canonical form -/

/-- The closing parenthesis that is looked for stays where it is in canonical form. -/
lemma splitClosing_canonical (opened : Nat) (t : Text) :
    splitClosing opened (canonical t) =
      (splitClosing opened t).map fun (inner, rest) => (canonical inner, canonical rest) := by
  induction t generalizing opened with
  | nil => rfl
  | cons c t ih =>
    by_cases hc : canonicalChar c = [c]
    · rw [canonical_cons, hc, List.singleton_append, splitClosing, splitClosing]
      split
      · rfl
      · dsimp only
        rw [ih, Option.map_map, Option.map_map]
        refine congrArg (Option.map · _) (funext fun p => ?_)
        simp [canonical_cons, hc]
    · -- a glyph is no parenthesis, and so is nothing that it becomes
      have hglyph : Balanced [c] := by
        refine balanced_of_not_mem ?_ ?_ <;>
        · intro hmem
          rw [← List.mem_singleton.1 hmem] at hc
          exact hc rfl
      rw [← List.singleton_append, canonical_append, splitClosing_append_of_balanced hglyph,
        splitClosing_append_of_balanced hglyph.canonical, ih, Option.map_map, Option.map_map]
      refine congrArg (Option.map · _) (funext fun p => ?_)
      simp [← canonical_append]

lemma canonical_eq_nil_iff {t : Text} : canonical t = [] ↔ t = [] := by
  constructor
  · intro h
    rcases t with _ | ⟨c, t⟩
    · rfl
    · rw [canonical_cons] at h
      have hc : canonicalChar c ≠ [] := by
        unfold canonicalChar
        split <;> simp
      exact absurd (List.append_eq_nil_iff.1 h).1 hc
  · rintro rfl
    rfl

lemma group?_canonical (t : Text) :
    group? (canonical t) =
      (group? t).map fun (inner, rest) => (canonical inner, canonical rest) := by
  rcases t with _ | ⟨c, t⟩
  · rfl
  by_cases hc : c = '('
  · subst hc
    rw [canonical_cons]
    change (splitClosing 0 (canonical t)).filter _ = ((splitClosing 0 t).filter _).map _
    rw [splitClosing_canonical, Option.filter_map]
    refine congrArg (Option.map _) (congrArg (Option.filter · _) (funext fun p => ?_))
    simp [canonical_eq_nil_iff]
  · rw [group?_eq_none_of_head hc, canonical_cons]
    unfold canonicalChar
    split
    · rfl
    · rfl
    · rfl
    · exact group?_eq_none_of_head hc _

lemma rootTexts_append_of_not_mem {s : Text} (hs : rootSign ∉ s) (t : Text) :
    rootTexts (s ++ t) = rootTexts t := by
  induction s with
  | nil => rfl
  | cons c s ih =>
    rw [List.mem_cons, not_or] at hs
    rw [List.cons_append, rootTexts, pieces_cons_of_ne (Ne.symm hs.1)]
    exact ih hs.2

lemma rootTexts_root_of_some {t inner rest : Text} (h : group? t = some (inner, rest)) :
    rootTexts (rootSign :: t) = inner :: rootTexts rest := by
  rw [rootTexts, pieces_root_of_some h]
  rfl

lemma rootTexts_root_of_none {t : Text} (h : group? t = none) :
    rootTexts (rootSign :: t) = rootTexts t := by
  rw [rootTexts, pieces_root_of_none h]
  rfl

/-- Canonical form keeps the root groups of a text. -/
lemma rootTexts_canonical (t : Text) : rootTexts (canonical t) = (rootTexts t).map canonical := by
  fun_induction pieces t with
  | case1 =>
    rw [canonical_nil, rootTexts, pieces]
    rfl
  | case2 t inner rest h ih =>
    have hcan : group? (canonical t) = some (canonical inner, canonical rest) := by
      rw [group?_canonical, h]
      rfl
    rw [rootTexts_root_of_some h, List.map_cons, ← ih]
    exact rootTexts_root_of_some hcan
  | case3 t h ih =>
    have hcan : group? (canonical t) = none := by
      rw [group?_canonical, h]
      rfl
    rw [rootTexts_root_of_none h, ← ih]
    exact rootTexts_root_of_none hcan
  | case4 c t hc ih =>
    have hcan : rootSign ∉ canonical [c] := by
      rw [mem_canonical_rootSign, List.mem_singleton]
      exact Ne.symm hc
    have hchar : rootSign ∉ [c] := by
      rw [List.mem_singleton]
      exact Ne.symm hc
    rw [← List.singleton_append, canonical_append, rootTexts_append_of_not_mem hcan, ih,
      rootTexts_append_of_not_mem hchar]

lemma firstFailure_canonical (us : List Text) (e : EvaluationError) :
    FirstFailure (us.map canonical) e ↔ FirstFailure us e := by
  induction us with
  | nil => exact Iff.rfl
  | cons u us ih =>
    rw [List.map_cons]
    have hu : evaluate (canonical u) = evaluate u := evaluate_canonical u
    cases hv : evaluate u with
    | error e₀ =>
      rw [firstFailure_cons_of_error hv, firstFailure_cons_of_error (hu.trans hv)]
    | ok x => rw [firstFailure_cons_of_ok hv, firstFailure_cons_of_ok (hu.trans hv), ih]

/-! ### Errors of the passes -/

/-- The error of a square is that of the digits and points in front of it. -/
lemma squaresAfter_error {written t : Text} {e : EvaluationError}
    (h : squaresAfter written t = .error e) :
    ∃ l, l ≠ [] ∧ (∀ c ∈ l, Numeral.isPart c = true) ∧ Numeral.read? l = none ∧
      e = .invalidExpression (.invalidNumber l) := by
  fun_induction squaresAfter written t with
  | case1 => cases h
  | case2 written c t hc run x hx ih => exact ih h
  | case3 written c t hc run hx =>
    refine ⟨run, by simpa [run] using hc.2, ?_, hx, (Except.error.inj h).symm⟩
    intro d hd
    exact List.all_eq_true.1 List.all_takeWhile d (List.mem_reverse.1 hd)
  | case4 written c t hc ih => exact ih h

lemma squares_error {t : Text} {e : EvaluationError} (h : squares t = .error e) :
    ∃ l, l ≠ [] ∧ (∀ c ∈ l, Numeral.isPart c = true) ∧ Numeral.read? l = none ∧
      e = .invalidExpression (.invalidNumber l) :=
  squaresAfter_error h

/-! ### The evaluation of a text -/

/-- The error of a token list is noted once. -/
lemma mapError_invalid_value (ts : List Token) :
    (value ts).mapError EvaluationError.invalid =
      (value ts).mapError EvaluationError.invalidExpression := by
  cases hv : value ts with
  | ok x => rfl
  | error c => exact congrArg Except.error (EvaluationError.invalid_of_not (value_not_invalid hv))

section

variable {t out u : Text} {e : EvaluationError}

lemma evaluate_of_expandRoots_error (h : expandRoots (canonical t) = .error e) :
    evaluate t = .error e.invalid := by
  rw [evaluate_eq, h]
  rfl

lemma evaluate_of_squares_error (hout : expandRoots (canonical t) = .ok out)
    (h : squares out = .error e) : evaluate t = .error e.invalid := by
  rw [evaluate_eq, hout]
  change (arithmetic out).mapError _ = _
  rw [arithmetic, h]
  rfl

lemma evaluate_of_squares_ok (hout : expandRoots (canonical t) = .ok out)
    (h : squares out = .ok u) :
    evaluate t = (value (Token.scan u)).mapError .invalidExpression := by
  rw [evaluate_eq, hout]
  change (arithmetic out).mapError _ = _
  rw [arithmetic, h]
  exact mapError_invalid_value (Token.scan u)

end

/-- **Errors are noted once.**  Every error of an evaluation is that of an invalid expression
around an error that is not. -/
lemma evaluate_notedOnce {t : Text} {e : EvaluationError} (h : evaluate t = .error e) :
    e.NotedOnce := by
  -- the text inside of a root group has fewer root signs
  induction hn : t.count rootSign using Nat.strongRecOn generalizing t e with
  | _ n ih =>
    cases hout : expandRoots (canonical t) with
    | error e' =>
      obtain ⟨before, inner, after, heq, -, herr⟩ := (expandRoots_eq_error_iff _ _).1 hout
      have hlt : inner.count rootSign < n := by
        rw [← hn]
        exact count_lt_of_mem_rootTexts (by rw [heq]; simp)
      have hnoted : e'.NotedOnce := ih _ hlt herr rfl
      rw [evaluate_of_expandRoots_error hout, hnoted.invalid_eq] at h
      exact Except.error.inj h ▸ hnoted
    | ok out =>
      cases hu : squares out with
      | error e' =>
        obtain ⟨l, -, -, -, rfl⟩ := squares_error hu
        rw [evaluate_of_squares_error hout hu] at h
        exact ⟨_, (Except.error.inj h).symm, rfl⟩
      | ok u =>
        rw [evaluate_of_squares_ok hout hu] at h
        cases hv : value (Token.scan u) with
        | ok x =>
          rw [hv] at h
          cases h
        | error c =>
          rw [hv] at h
          exact ⟨c, (Except.error.inj h).symm, value_not_invalid hv⟩

/-- The first group that has no value gives its error to the whole text. -/
lemma evaluate_of_firstFailure {t : Text} {e : EvaluationError}
    (h : FirstFailure (rootTexts (canonical t)) e) : evaluate t = .error e := by
  have hroots := (expandRoots_eq_error_iff _ e).2 h
  obtain ⟨-, inner, -, -, -, he⟩ := h
  rw [evaluate_of_expandRoots_error hroots, (evaluate_notedOnce he).invalid_eq]

/-- **Which error is reported.**  Every error of an evaluation notes exactly once that the
expression is invalid, around its root cause.  If one of the root groups of the text fails, the
error is that of the leftmost such group, whatever else is wrong.  If none does, the text with its
roots computed decides: a square whose literal cannot be read gives the error, and otherwise the
error is that of the tokens. -/
theorem evaluate_error_priority (t : Text) :
    (∀ e, evaluate t = .error e → ∃ c, e = .invalidExpression c ∧ c.isInvalidExpression = false ∧
      e.rootCause = c ∧ e.kind ≠ "invalid_expression".toList) ∧
    (∀ before inner after e, rootTexts t = before ++ inner :: after →
      (∀ u ∈ before, ∃ x, evaluate u = .ok x) → evaluate inner = .error e →
      evaluate t = .error e) ∧
    ((∀ u ∈ rootTexts t, ∃ x, evaluate u = .ok x) →
      ∃ out, expandRoots (canonical t) = .ok out ∧
        (∀ e, squares out = .error e → evaluate t = .error e ∧
          ∃ l, l ≠ [] ∧ (∀ c ∈ l, Numeral.isPart c = true) ∧ Numeral.read? l = none ∧
            e = .invalidExpression (.invalidNumber l)) ∧
        ∀ u, squares out = .ok u →
          evaluate t = (value (Token.scan u)).mapError .invalidExpression) := by
  refine ⟨?_, ?_, ?_⟩
  · intro e he
    obtain ⟨c, rfl, hc⟩ := evaluate_notedOnce he
    exact ⟨c, rfl, hc, rootCause_of_not hc, kind_ne _⟩
  · intro before inner after e hsplit hbefore hinner
    have hfirst : FirstFailure (rootTexts (canonical t)) e := by
      rw [rootTexts_canonical, firstFailure_canonical]
      exact ⟨before, inner, after, hsplit, hbefore, hinner⟩
    rw [evaluate_of_expandRoots_error ((expandRoots_eq_error_iff _ _).2 hfirst),
      (evaluate_notedOnce hinner).invalid_eq]
  · intro hall
    obtain ⟨out, hout⟩ : ∃ out, expandRoots (canonical t) = .ok out := by
      refine exists_expandRoots_eq_ok fun u hu => ?_
      rw [rootTexts_canonical] at hu
      obtain ⟨u', hu', rfl⟩ := List.mem_map.1 hu
      rw [evaluate_canonical]
      exact hall u' hu'
    refine ⟨out, hout, ?_, fun u hu => evaluate_of_squares_ok hout hu⟩
    intro e he
    obtain ⟨l, hne, hpart, hread, rfl⟩ := squares_error he
    exact ⟨evaluate_of_squares_error hout he, l, hne, hpart, hread, rfl⟩

/-- The division by zero inside of a root comes before the malformed square to its left and the
unfinished group to its right; where the root has a value, the malformed square comes before the
parenthesis that is not closed. -/
theorem evaluate_error_of_several :
    evaluate "1.2.3²+√(1/0)+√(2+)".toList = .error (.invalidExpression .divisionByZero) ∧
      (EvaluationError.invalidExpression .divisionByZero).rootCause = .divisionByZero ∧
      evaluate "√(4)+1.2.3²+(".toList =
        .error (.invalidExpression (.invalidNumber "1.2.3".toList)) := by
  have hzero : evaluate "1/0".toList = .error (.invalidExpression .divisionByZero) := by
    rw [evaluate_of_not_mem (by decide) (by decide)]
    rfl
  have hfour : evaluate "4".toList = .ok (Decimal.value ⟨4, 0⟩) := by
    rw [evaluate_of_not_mem (by decide) (by decide)]
    rfl
  obtain ⟨hnoted, hfirst, -⟩ := evaluate_error_priority "1.2.3²+√(1/0)+√(2+)".toList
  obtain ⟨-, -, hpasses⟩ := evaluate_error_priority "√(4)+1.2.3²+(".toList
  have hvalue := hfirst [] "1/0".toList ["2+".toList] _ (by decide +kernel) (by simp) hzero
  refine ⟨hvalue, ?_, ?_⟩
  · obtain ⟨c, hc, -, hroot, -⟩ := hnoted _ hvalue
    rw [hroot]
    exact (EvaluationError.invalidExpression.inj hc).symm
  · have hroots : rootTexts "√(4)+1.2.3²+(".toList = ["4".toList] := by decide +kernel
    obtain ⟨out, hout, hsquares, -⟩ := hpasses (by rw [hroots]; simpa using ⟨_, hfour⟩)
    have hexpanded : expandRoots (canonical "√(4)+1.2.3²+(".toList) =
        .ok "2+1.2.3²+(".toList := by
      have hrest : expandRoots "+1.2.3²+(".toList = .ok "+1.2.3²+(".toList :=
        expandRoots_eq_self (by decide)
      have hgroup : group? "(4)+1.2.3²+(".toList = some ("4".toList, "+1.2.3²+(".toList) := by
        decide
      refine (expandRoots_root_of_some hgroup).trans ?_
      rw [hfour, hrest]
      decide +kernel
    obtain rfl := Except.ok.inj (hout.symm.trans hexpanded)
    exact (hsquares _ rfl).1

end Expression

end DeskCalculator
