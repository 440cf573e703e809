import DeskCalculator.Proofs.Expression.Failure
import DeskCalculator.Proofs.Expression.NestingLimit
import DeskCalculator.Proofs.Expression.RootSubstitution

/-!
# Nested root groups

The limit of nesting holds for the tokens of one text.  The text inside of a root group is evaluated
by itself, with a stack of its own, and so root groups may be nested as deeply as there are
root signs: the evaluation of a text evaluates others, those evaluate others again, and how deep
this goes is bounded by the root signs of the text only (`count_of_descends`).

The module is carried by the calls of an evaluation (`Calls`).  An error inside of a call becomes
the error of the whole (`evaluate_error_of_descends`), and therefore a text is too deep exactly if
the tokens of one of the texts that are reached by calls are (`tooDeep_iff`).
-/

namespace DeskCalculator

namespace Expression

open EvaluationError Point

/-- The text `u` stands inside of a root group of `t`. -/
def Contains (t u : Text) : Prop := u ∈ rootTexts (canonical t)

/-- Evaluating `t` evaluates `u`: it stands inside of a root group, and the groups in front of it
have values, so that the evaluation gets to it. -/
def Calls (t u : Text) : Prop :=
  ∃ before after, rootTexts (canonical t) = before ++ u :: after ∧
    ∀ v ∈ before, ∃ x, evaluate v = .ok x

/-- Between the texts `t` and `u` there are `n` steps of the relation `r`. -/
inductive Descends (r : Text → Text → Prop) : Nat → Text → Text → Prop
  | here (t : Text) : Descends r 0 t t
  | inside {n : Nat} {t u v : Text} (hr : r t u) (h : Descends r n u v) : Descends r (n + 1) t v

lemma Descends.mono {r s : Text → Text → Prop} (hrs : ∀ t u, r t u → s t u) {n : Nat} {t u : Text}
    (h : Descends r n t u) : Descends s n t u := by
  induction h with
  | here t => exact .here t
  | inside hr _ ih => exact .inside (hrs _ _ hr) ih

/-! ### How deep the calls go -/

section

variable {n : Nat} {t u : Text} {e : EvaluationError}

lemma Calls.contains (h : Calls t u) : Contains t u := by
  obtain ⟨before, after, heq, -⟩ := h
  rw [Contains, heq]
  exact List.mem_append_right _ List.mem_cons_self

/-- Every call takes at least one root sign away. -/
lemma count_of_descends (h : Descends Calls n t u) : n + u.count rootSign ≤ t.count rootSign := by
  induction h with
  | here t => exact Nat.le_of_eq (Nat.zero_add _)
  | inside hcall _ ih =>
    have hlt := count_lt_of_mem_rootTexts hcall.contains
    omega

/-! ### Errors of calls -/

lemma firstFailure_of_calls (h : Calls t u) (he : evaluate u = .error e) :
    FirstFailure (rootTexts (canonical t)) e := by
  obtain ⟨before, after, heq, hbefore⟩ := h
  exact ⟨before, u, after, heq, hbefore, he⟩

/-- The error of a text that is reached by calls is the error of the whole. -/
lemma evaluate_error_of_descends (h : Descends Calls n t u) (he : evaluate u = .error e) :
    evaluate t = .error e := by
  induction h with
  | here t => exact he
  | inside hcall _ ih => exact evaluate_of_firstFailure (firstFailure_of_calls hcall (ih he))

/-- The group around a text is reached, or one in front of it has no value. -/
lemma calls_or_error (h : Contains t u) : Calls t u ∨ ∃ e, evaluate t = .error e := by
  obtain ⟨before, after, heq⟩ := List.append_of_mem h
  rcases ok_or_firstFailure before with hok | ⟨e, he⟩
  · exact Or.inl ⟨before, after, heq, hok⟩
  · have hfirst := he.append (u :: after)
    rw [← heq] at hfirst
    exact Or.inr ⟨e, evaluate_of_firstFailure hfirst⟩

/-- As deeply as root groups are nested, the evaluation calls itself, unless it fails. -/
lemma descends_or_error (h : Descends Contains n t u) :
    Descends Calls n t u ∨ ∃ e, evaluate t = .error e := by
  induction h with
  | here t => exact Or.inl (.here t)
  | inside hcontains _ ih =>
    rcases calls_or_error hcontains with hcall | herror
    · rcases ih with hdeep | ⟨e, he⟩
      · exact Or.inl (.inside hcall hdeep)
      · exact Or.inr ⟨e, evaluate_of_firstFailure (firstFailure_of_calls hcall he)⟩
    · exact Or.inr herror

/-! ### Texts that are too deep -/

/-- The value of a text whose primitive form is there is that of its tokens. -/
lemma evaluate_of_primitive {p : Text} (h : primitive t = .ok p) :
    evaluate t = (value (Token.scan p)).mapError .invalid := by
  rw [evaluate, h]
  rfl

/-- A text is too deep because a text is that it calls, or because its own tokens are. -/
lemma tooDeep_cases {limit : Nat} (he : evaluate t = .error e)
    (hroot : e.rootCause = .tooDeep limit) :
    (∃ u, Calls t u ∧ evaluate u = .error e) ∨
      ∃ p, primitive t = .ok p ∧ value (Token.scan p) = .error (.tooDeep limit) := by
  cases hout : expandRoots (canonical t) with
  | error e' =>
    have hfirst := (expandRoots_eq_error_iff _ _).1 hout
    obtain rfl := Except.error.inj (he.symm.trans (evaluate_of_firstFailure hfirst))
    obtain ⟨before, inner, after, heq, hbefore, hinner⟩ := hfirst
    exact Or.inl ⟨inner, ⟨before, after, heq, hbefore⟩, hinner⟩
  | ok out =>
    cases hp : squares out with
    | error e' =>
      obtain ⟨l, -, -, -, rfl⟩ := squares_error hp
      obtain rfl := Except.error.inj (he.symm.trans (evaluate_of_squares_error hout hp))
      cases hroot
    | ok p =>
      refine Or.inr ⟨p, by rw [primitive_eq_expandRoots, hout]; exact hp, ?_⟩
      rw [evaluate_of_squares_ok hout hp] at he
      cases hv : value (Token.scan p) with
      | ok x =>
        rw [hv] at he
        cases he
      | error c =>
        rw [hv] at he
        obtain rfl := Except.error.inj he
        rw [← hroot]
        exact congrArg Except.error (rootCause_of_not (value_not_invalid hv)).symm

/-- **Root groups are not levels.**  A text is too deep exactly if the tokens of a text are
that is reached by calls. -/
lemma tooDeep_iff (t : Text) (limit : Nat) :
    (∃ e, evaluate t = .error e ∧ e.rootCause = .tooDeep limit) ↔
      ∃ n u p, Descends Calls n t u ∧ primitive u = .ok p ∧
        value (Token.scan p) = .error (.tooDeep limit) := by
  constructor
  · rintro ⟨e, he, hroot⟩
    -- the text inside of a root group has fewer root signs
    induction hn : t.count rootSign using Nat.strongRecOn generalizing t with
    | _ n ih =>
      rcases tooDeep_cases he hroot with ⟨u, hcall, hu⟩ | ⟨p, hp, hv⟩
      · have hlt : u.count rootSign < n := hn ▸ count_lt_of_mem_rootTexts hcall.contains
        obtain ⟨k, v, p, hdeep, hp, hv⟩ := ih _ hlt u hu rfl
        exact ⟨k + 1, v, p, .inside hcall hdeep, hp, hv⟩
      · exact ⟨0, t, p, .here t, hp, hv⟩
  · rintro ⟨n, u, p, hdeep, hp, hv⟩
    have hu : evaluate u = .error (.invalidExpression (.tooDeep limit)) := by
      rw [evaluate_of_primitive hp, hv]
      rfl
    exact ⟨_, evaluate_error_of_descends hdeep hu, rfl⟩

end

/-! ### Towers of root groups -/

section

variable {e : Text} {x : Float} {m : Nat} {q : Int}

/-- A literal has the value that it reads as. -/
lemma evaluate_literal {l : Text} (hl : IsLiteral x l) : evaluate l = .ok x := by
  have hroot : rootSign ∉ l := hl.not_mem (by decide)
  have hsquare : squareSign ∉ l := hl.not_mem (by decide)
  have hscan : Token.scan l = [.number l] := by
    have h := Token.scan_literal (s := []) (t := []) (by simp) hl.isPart hl.ne_nil (by simp)
    rwa [List.nil_append, List.append_nil, Token.scan_nil] at h
  rw [evaluate_of_not_mem hroot hsquare, canonical_eq_self hl.isCanonical, hscan, value,
    operandNext, hl.reads]
  rfl

/-- A root group has the square root of the value inside of it. -/
lemma evaluate_rootGroup (he : Balanced e) (hv : evaluate e = .ok x)
    (hx : Binary64.ofFloat x = .finite false m q) : evaluate (rootGroup e) = .ok x.sqrt := by
  obtain ⟨m', q', hroot⟩ := Binary64.exists_ofFloat_sqrt hx
  have hl : IsLiteral x.sqrt (Shortest.text x.sqrt) := isLiteral_text hroot
  have hplace : IsPlace [] [] := ⟨by simp, by simp⟩
  have h := evaluate_literal_for_group he hv hl hl hplace
  rw [List.nil_append, List.append_nil, List.nil_append, List.append_nil] at h
  rw [h, evaluate_literal hl]

lemma rootTexts_rootGroup (he : Balanced e) (hne : e ≠ []) :
    rootTexts (canonical (rootGroup e)) = [canonical e] := by
  have hnil : rootTexts [] = [] := by
    rw [rootTexts, pieces]
    rfl
  have hgroup := group?_balanced he hne []
  rw [List.append_nil] at hgroup
  rw [rootTexts_canonical, rootGroup, rootTexts_root_of_some hgroup, hnil]
  rfl

lemma calls_rootGroup (he : Balanced e) (hne : e ≠ []) : Calls (rootGroup e) (canonical e) :=
  ⟨[], [], rootTexts_rootGroup he hne, by simp⟩

/-- A text and its canonical form call the same texts. -/
lemma Descends.canonical {n : Nat} {t u : Text} (h : Descends Calls n t u) :
    ∃ v, Descends Calls n (canonical t) v := by
  cases h with
  | here t => exact ⟨_, .here _⟩
  | inside hcall h =>
    rw [Calls, ← canonical_canonical] at hcall
    exact ⟨_, .inside hcall h⟩

/-- A tower of root groups around a text with a value has the value that remains when the square
root is taken once for every group, and its evaluation calls itself as often. -/
lemma evaluate_tower (he : Balanced e) (hv : evaluate e = .ok x)
    (hx : Binary64.ofFloat x = .finite false m q) (n : Nat) :
    Balanced (rootGroup^[n] e) ∧ evaluate (rootGroup^[n] e) = .ok (Float.sqrt^[n] x) ∧
      (∃ m' q', Binary64.ofFloat (Float.sqrt^[n] x) = .finite false m' q') ∧
      ∃ u, Descends Calls n (rootGroup^[n] e) u := by
  induction n with
  | zero => exact ⟨he, hv, ⟨m, q, hx⟩, e, .here e⟩
  | succ n ih =>
    obtain ⟨hbalanced, hvalue, ⟨m', q', hfinite⟩, u, hdeep⟩ := ih
    rw [Function.iterate_succ_apply', Function.iterate_succ_apply']
    -- what the outermost group calls is the canonical form of the tower inside of it
    obtain ⟨v, hcan⟩ := hdeep.canonical
    exact ⟨(isOperand_rootGroup hbalanced).balanced,
      evaluate_rootGroup hbalanced hvalue hfinite, Binary64.exists_ofFloat_sqrt hfinite,
      v, .inside (calls_rootGroup hbalanced (ne_nil_of_evaluate hvalue)) hcan⟩

end

/-- **Root groups may be nested without limit.**  An evaluation calls itself at most as often, one
call inside of another, as its text has root signs, and 256 levels of nesting may come on top of
that for the tokens of the innermost text.  A text is too deep exactly if the tokens of a text are
that is reached by calls; the calls themselves are not limited.  If root groups are nested `n` deep
in a text, whatever stands around them, then the evaluation calls itself `n` deep or the text has no
value; and a tower of any number of root groups, around a balanced text whose value is finite and
not negative, has a value. -/
theorem root_nesting_not_limited :
    (∀ (n : Nat) (t u : Text), Descends Calls n t u → n ≤ t.count rootSign ∧
      ∀ (p : Text) (q : Point), primitive u = .ok p → Reaches (.wanting [] (Token.scan p)) q →
        n + nesting q.frames ≤ t.count rootSign + 256) ∧
    (∀ (t : Text) (limit : Nat),
      (∃ e, evaluate t = .error e ∧ e.rootCause = .tooDeep limit) ↔
        ∃ n u p, Descends Calls n t u ∧ primitive u = .ok p ∧
          value (Token.scan p) = .error (.tooDeep limit)) ∧
    (∀ (n : Nat) (t u : Text), Descends Contains n t u →
      Descends Calls n t u ∨ ∃ e, evaluate t = .error e) ∧
    ∀ (n : Nat) (e : Text) (x : Float) (m : Nat) (q : Int), Balanced e → evaluate e = .ok x →
      Binary64.ofFloat x = .finite false m q →
      evaluate (rootGroup^[n] e) = .ok (Float.sqrt^[n] x) ∧
        ∃ u, Descends Calls n (rootGroup^[n] e) u := by
  refine ⟨?_, tooDeep_iff, fun n t u => descends_or_error, ?_⟩
  · intro n t u h
    have hcount := count_of_descends h
    refine ⟨by omega, fun p q _ hreaches => ?_⟩
    have hnesting : nesting q.frames ≤ 256 := nesting_le_of_reaches hreaches (Nat.zero_le _)
    omega
  · intro n e x m q he hv hx
    obtain ⟨-, hvalue, -, hdeep⟩ := evaluate_tower he hv hx n
    exact ⟨hvalue, hdeep⟩

lemma evaluate_one : evaluate ['1'] = .ok 1 :=
  evaluate_literal ⟨List.all_eq_true.1 (by decide), by decide +kernel⟩

/-- The root of one, and a tower of three hundred root groups around a one. -/
theorem root_nesting_of_one :
    (1 + nesting (Point.wanting [] (Token.scan ['1'])).frames ≤
      (rootGroup ['1']).count rootSign + 256) ∧
    (Descends Calls 1 (rootGroup ['1']) ['1'] ∨ ∃ e, evaluate (rootGroup ['1']) = .error e) ∧
    evaluate (rootGroup^[300] ['1']) = .ok (Float.sqrt^[300] 1) ∧
    ∃ u, Descends Calls 300 (rootGroup^[300] ['1']) u := by
  obtain ⟨hbound, -, hnested, htower⟩ := root_nesting_not_limited
  have hone : Balanced ['1'] := balanced_of_not_mem (by decide) (by decide)
  have hcall : Calls (rootGroup ['1']) ['1'] := calls_rootGroup hone (by decide)
  have hprimitive : primitive ['1'] = .ok ['1'] := primitive_eq_canonical (by decide) (by decide)
  refine ⟨?_, hnested 1 _ _ (.inside hcall.contains (.here _)), ?_⟩
  · exact (hbound 1 _ _ (.inside hcall (.here _))).2 _ _ hprimitive .refl
  · exact htower 300 ['1'] 1 _ _ hone evaluate_one
      (show Binary64.ofFloat 1 = .finite false (2 ^ 52) (-52) by decide +kernel)

/-- A tower of 257 root groups around a one is nested as deeply, and so are the calls of its
evaluation, but it has the value one. -/
theorem evaluate_tower_of_one :
    (∃ u, Descends Contains 257 (rootGroup^[257] ['1']) u) ∧
      (∃ u, Descends Calls 257 (rootGroup^[257] ['1']) u) ∧
      evaluate (rootGroup^[257] ['1']) = .ok 1 := by
  have hone : Balanced ['1'] := balanced_of_not_mem (by decide) (by decide)
  have hfinite : Binary64.ofFloat 1 = .finite false (2 ^ 52) (-52) := by decide +kernel
  have hsqrt : Float.sqrt 1 = 1 := by decide +kernel
  obtain ⟨-, hvalue, -, u, hdeep⟩ := evaluate_tower hone evaluate_one hfinite 257
  rw [Function.iterate_fixed hsqrt] at hvalue
  exact ⟨⟨u, hdeep.mono fun _ _ => Calls.contains⟩, ⟨u, hdeep⟩, hvalue⟩

end Expression

end DeskCalculator
