import DeskCalculator.Proofs.Expression.Balance
import DeskCalculator.Proofs.Expression.Literal
import DeskCalculator.Proofs.Number.ReadBack
import DeskCalculator.Proofs.Number.SquareRoot

/-!
# Root groups stand for their values

A root group may be replaced by any literal of its value, wherever it stands by itself.  The place
may lie inside of other root groups, which are evaluated as texts of their own, and so the proof
goes over the text in front of the place from left to right: a group that ends before the place is
evaluated to the same number on both sides, a group around the place is the same statement for a
shorter text, and everything else is copied (`evaluate_substitute`).  At the place itself the group
has become the text of its value, which is a literal (`arithmetic_literal`).
-/

namespace DeskCalculator

namespace Expression

open Numeral

/-- The root group with `e` inside of it. -/
def rootGroup (e : Text) : Text := rootSign :: ('(' :: e ++ [')'])

/-- A place in a text, between `p` and `s`, where a number stands by itself: `p` does not end with
what could run on into it, and `s` does not start so. -/
structure IsPlace (p s : Text) : Prop where
  /-- In front there is no part of a number, and no square and no group that may become one. -/
  before : ∀ c ∈ p.getLast?, isPart c = false ∧ c ≠ squareSign ∧ c ≠ ')'
  /-- Behind there is no part of a number, and no root that may become one. -/
  after : ∀ c ∈ s.head?, isPart c = false ∧ c ≠ rootSign

namespace IsPlace

variable {p s : Text}

lemma endsApart (h : IsPlace p s) : EndsApart p := fun c hc => (h.before c hc).1

/-- The place seen from inside of a text around it. -/
lemma inner {u v : Text} (h : IsPlace (u ++ p) (s ++ v)) : IsPlace p s where
  before c hc := h.before c (List.mem_getLast?_append_of_mem_getLast? hc)
  after c hc := h.after c (List.mem_head?_append_of_mem_head? hc)

/-- Only the end of the text in front of the place counts. -/
lemma change_front {u u' : Text} (h : IsPlace (u ++ p) s) (hp : p ≠ []) :
    IsPlace (u' ++ p) s where
  before c hc := by
    rw [List.getLast?_append_of_ne_nil _ hp] at hc
    exact h.before c (by rw [List.getLast?_append_of_ne_nil _ hp]; exact hc)
  after := h.after

/-- A place behind a root group, whatever becomes of the group. -/
lemma behind_group {done inner rest : Text}
    (h : IsPlace (done ++ rootSign :: ('(' :: inner ++ ')' :: rest)) s) (u : Text) :
    IsPlace (u ++ rest) s := by
  have hrest : rest ≠ [] := by
    rintro rfl
    refine (h.before ')' ?_).2.2 rfl
    rw [← List.cons_append, ← List.append_assoc]
    exact List.getLast?_concat
  refine change_front (u := done ++ rootSign :: ('(' :: inner ++ [')'])) ?_ hrest
  simpa using h

/-- A place inside of a root group. -/
lemma inside_group {done body inner rest : Text}
    (h : IsPlace (done ++ rootSign :: '(' :: body) (inner ++ ')' :: rest)) :
    IsPlace body inner := by
  refine IsPlace.inner (u := done ++ [rootSign, '(']) (v := ')' :: rest) ?_
  simpa using h

end IsPlace

/-- A condition on places that looks at no more of the text in front than what stands behind the
last root group, and holds inside of a root group if it does from outside. -/
structure Places (P : Text → Text → Prop) : Prop where
  behind_group : ∀ {done inner rest s : Text},
    P (done ++ rootSign :: ('(' :: inner ++ ')' :: rest)) s → ∀ u, P (u ++ rest) s
  inside_group : ∀ {done body inner rest : Text},
    P (done ++ rootSign :: '(' :: body) (inner ++ ')' :: rest) → P body inner

lemma places_isPlace : Places IsPlace := ⟨IsPlace.behind_group, IsPlace.inside_group⟩

/-! ## Operands -/

lemma IsLiteral.isOperand {x : Float} {l : Text} (hl : IsLiteral x l) : IsOperand l where
  balanced := balanced_of_not_mem (hl.not_mem (by decide)) (hl.not_mem (by decide))
  head := by
    obtain ⟨c, t, rfl⟩ := List.exists_cons_of_ne_nil hl.ne_nil
    exact ⟨c, t, rfl, hl.ne_of_mem List.mem_cons_self (by decide)⟩

lemma isOperand_rootGroup {e : Text} (he : Balanced e) : IsOperand (rootGroup e) where
  balanced := balanced_of_closesAtMost
    ((closesAtMost_cons 0 rfl).2 he.group.closesAtMost) (by
      rw [rootGroup, List.count_cons_of_ne (by decide), List.count_cons_of_ne (by decide)]
      exact he.group.total)
  head := ⟨rootSign, _, rfl, by decide⟩

lemma group?_balanced {e : Text} (he : Balanced e) (hne : e ≠ []) (s : Text) :
    group? ('(' :: e ++ [')'] ++ s) = some (e, s) := by
  rw [List.append_assoc, List.cons_append, List.singleton_append, group?, splitClosing_balanced he]
  exact if_pos (decide_eq_true hne)

lemma expandRoots_rootGroup {e : Text} (he : Balanced e) (hne : e ≠ []) (s : Text) :
    expandRoots (rootGroup e ++ s) = evaluate e >>= fun x => expandRoots s >>= fun out =>
      .ok (Shortest.text x.sqrt ++ out) :=
  expandRoots_root_of_some (group?_balanced he hne s)

/-- Nothing has no value. -/
lemma ne_nil_of_evaluate {e : Text} {x : Float} (h : evaluate e = .ok x) : e ≠ [] := by
  rintro rfl
  rw [evaluate_eq, canonical_nil, expandRoots_nil] at h
  cases h

/-- Expanding roots does not bring a number to the start of a text. -/
lemma startsApart_of_expandRoots {s out : Text}
    (hs : ∀ c ∈ s.head?, isPart c = false ∧ c ≠ rootSign)
    (h : expandRoots s = .ok out) : StartsApart out := by
  rcases s with _ | ⟨c, s⟩
  · rw [expandRoots_nil] at h
    obtain rfl := Except.ok.inj h
    exact fun c hc => absurd hc (by simp)
  · rw [expandRoots_cons_of_ne (hs c rfl).2] at h
    rcases hrest : expandRoots s with e | rest
    · rw [hrest] at h
      cases h
    · rw [hrest] at h
      obtain rfl : c :: rest = out := Except.ok.inj h
      intro d hd
      obtain rfl : c = d := by simpa using hd
      exact (hs c rfl).1

/-! ## Canonical texts -/

/-- A text that is its own canonical form. -/
def IsCanonical (t : Text) : Prop := ∀ c ∈ t, canonicalChar c = [c]

lemma isCanonical_canonical (t : Text) : IsCanonical (canonical t) :=
  fun _ hc => canonicalChar_of_mem_canonical hc

lemma IsCanonical.subset {s t : Text} (ht : IsCanonical t) (hst : s ⊆ t) : IsCanonical s :=
  fun c hc => ht c (hst hc)

lemma IsCanonical.append {s t : Text} (hs : IsCanonical s) (ht : IsCanonical t) :
    IsCanonical (s ++ t) := by
  intro c hc
  rcases List.mem_append.1 hc with hc | hc
  · exact hs c hc
  · exact ht c hc

lemma IsLiteral.isCanonical {x : Float} {l : Text} (hl : IsLiteral x l) : IsCanonical l :=
  fun c hc => Token.canonicalChar_of_isPart (hl.isPart c hc)

lemma canonical_rootGroup (e : Text) : canonical (rootGroup e) = rootGroup (canonical e) := by
  rw [rootGroup, canonical_cons, canonical_append, canonical_cons]
  rfl

lemma isCanonical_rootGroup {e : Text} (he : IsCanonical e) : IsCanonical (rootGroup e) := by
  have hcan := isCanonical_canonical (rootGroup e)
  rwa [canonical_rootGroup, canonical_eq_self he] at hcan

/-- The last character of a canonical form ends an operator, or it is the last one of the text. -/
lemma getLast?_canonical {p : Text} {c : Char} (hc : c ∈ (canonical p).getLast?) :
    c = '*' ∨ c = '/' ∨ c ∈ p.getLast? := by
  rcases List.eq_nil_or_concat p with rfl | ⟨p, d, rfl⟩
  · exact Or.inr (Or.inr hc)
  · rw [List.concat_eq_append, canonical_append, canonical_cons, canonical_nil,
      List.append_nil] at hc
    rw [List.concat_eq_append, List.getLast?_concat]
    unfold canonicalChar at hc
    split at hc
    · exact Or.inl (by simpa using hc.symm)
    · exact Or.inr (Or.inl (by simpa using hc.symm))
    · exact Or.inl (by simpa using hc.symm)
    · exact Or.inr (Or.inr (by simpa using hc))

lemma head?_canonical {s : Text} {c : Char} (hc : c ∈ (canonical s).head?) :
    c = '*' ∨ c = '/' ∨ c ∈ s.head? := by
  rcases s with _ | ⟨d, s⟩
  · exact Or.inr (Or.inr hc)
  · rw [canonical_cons] at hc
    unfold canonicalChar at hc
    split at hc
    · exact Or.inl (by simpa using hc.symm)
    · exact Or.inr (Or.inl (by simpa using hc.symm))
    · exact Or.inl (by simpa using hc.symm)
    · exact Or.inr (Or.inr hc)

lemma IsPlace.canonical {p s : Text} (h : IsPlace p s) :
    IsPlace (canonical p) (canonical s) where
  before c hc := by
    rcases getLast?_canonical hc with rfl | rfl | hc
    · decide
    · decide
    · exact h.before c hc
  after c hc := by
    rcases head?_canonical hc with rfl | rfl | hc
    · decide
    · decide
    · exact h.after c hc

/-! ## Substitution -/

/-- The value of a text without roots that starts with `done` and goes on with what becomes of
`t`. -/
def valueFrom (done t : Text) : Except EvaluationError Float :=
  expandRoots t >>= fun out => arithmetic (done ++ out)

lemma evaluate_of_isCanonical {t : Text} (ht : IsCanonical t) :
    evaluate t = (valueFrom [] t).mapError .invalid := by
  rw [evaluate_eq, canonical_eq_self ht]
  rfl

/-- What has been copied or computed joins the part that has been gone over. -/
lemma valueFrom_append (done part rest : Text) :
    ((expandRoots rest >>= fun out => .ok (part ++ out)) >>= fun out => arithmetic (done ++ out)) =
      valueFrom (done ++ part) rest := by
  rw [valueFrom, bind_assoc]
  refine congrArg (expandRoots rest >>= ·) (funext fun out => ?_)
  rw [List.append_assoc]
  rfl

lemma valueFrom_cons_of_ne {c : Char} (hc : c ≠ rootSign) (done t : Text) :
    valueFrom done (c :: t) = valueFrom (done ++ [c]) t := by
  rw [valueFrom, expandRoots_cons_of_ne hc]
  exact valueFrom_append done [c] t

lemma valueFrom_root_of_none {t : Text} (h : group? t = none) (done : Text) :
    valueFrom done (rootSign :: t) = valueFrom (done ++ [rootSign]) t := by
  rw [valueFrom, expandRoots_root_of_none h]
  exact valueFrom_append done [rootSign] t

lemma valueFrom_root_of_some {t inner rest : Text} (h : group? t = some (inner, rest))
    (done : Text) : valueFrom done (rootSign :: t) =
      evaluate inner >>= fun x => valueFrom (done ++ Shortest.text x.sqrt) rest := by
  rw [valueFrom, expandRoots_root_of_some h]
  rcases evaluate inner with e | x
  · rfl
  · exact valueFrom_append done (Shortest.text x.sqrt) rest

section Substitution

variable {P : Text → Text → Prop} {e w : Text}

/-- Substitution in a text that has canonical form, of which the part `done` in front has been
gone over already.  What takes the place of the group need only do so where the group comes
next. -/
lemma valueFrom_substitute (hP : Places P) (he : Balanced e) (hecan : IsCanonical e)
    (hw : IsOperand w) (hwcan : IsCanonical w)
    (hnext : ∀ {done s}, P done s → valueFrom done (rootGroup e ++ s) = valueFrom done (w ++ s))
    (p : Text) {done s : Text} (hplace : P (done ++ p) s) (hp : IsCanonical p)
    (hs : IsCanonical s) :
    valueFrom done (p ++ (rootGroup e ++ s)) = valueFrom done (p ++ (w ++ s)) := by
  -- a group may take more than one character off the front, or give a shorter text inside of it
  generalize hn : p.length = n
  induction n using Nat.strongRecOn generalizing p done s with
  | _ n ih =>
    rcases p with _ | ⟨c, p⟩
    · rw [List.append_nil] at hplace
      exact hnext hplace
    have hp' : IsCanonical p := hp.subset (List.subset_cons_self c p)
    have hrest : P (done ++ [c] ++ p) s := by
      rwa [List.append_assoc, List.singleton_append]
    have hcopied := ih p.length (by rw [← hn]; exact Nat.lt_succ_self _) p hrest hp' hs rfl
    by_cases hc : c ≠ rootSign
    · rw [List.cons_append, List.cons_append, valueFrom_cons_of_ne hc, valueFrom_cons_of_ne hc]
      exact hcopied
    obtain rfl : c = rootSign := Decidable.not_not.1 hc
    rw [List.cons_append, List.cons_append]
    rcases group?_append_cases p s with ⟨inner, rest, rfl, hbefore⟩ | hnone |
      ⟨body, inner, rest, rfl, rfl, haround⟩
    · -- the group ends in front of the place
      rw [valueFrom_root_of_some (hbefore _), valueFrom_root_of_some (hbefore _)]
      refine congrArg (evaluate inner >>= ·) (funext fun y => ?_)
      refine ih rest.length ?_ rest (hP.behind_group hplace _) (hp'.subset ?_) hs rfl
      · rw [← hn]
        simp only [List.length_cons, List.length_append]
        omega
      · intro d hd
        simp [hd]
    · -- the root sign has no group
      rw [valueFrom_root_of_none (hnone _ (isOperand_rootGroup he)),
        valueFrom_root_of_none (hnone _ hw)]
      exact hcopied
    · -- the place is inside of the group
      have hinside : P ([] ++ body) inner := hP.inside_group hplace
      have hbody : IsCanonical body := hp'.subset (List.subset_cons_self '(' body)
      have hinner : IsCanonical inner := hs.subset (List.subset_append_left _ _)
      have hvalue : evaluate (body ++ (rootGroup e ++ inner)) =
          evaluate (body ++ (w ++ inner)) := by
        rw [evaluate_of_isCanonical (hbody.append ((isCanonical_rootGroup hecan).append hinner)),
          evaluate_of_isCanonical (hbody.append (hwcan.append hinner)),
          ih body.length ?_ body hinside hbody hinner rfl]
        rw [← hn]
        simp only [List.length_cons]
        omega
      rw [valueFrom_root_of_some (haround _ (isOperand_rootGroup he)),
        valueFrom_root_of_some (haround _ hw), hvalue]

/-- Substitution in any text. -/
lemma evaluate_substitute (hP : Places P) (he : Balanced e) (hw : IsOperand w)
    (hwcan : IsCanonical w)
    (hnext : ∀ {done s}, P done s →
      valueFrom done (rootGroup (canonical e) ++ s) = valueFrom done (w ++ s))
    {p s : Text} (hplace : P (canonical p) (canonical s)) :
    evaluate (p ++ rootGroup e ++ s) = evaluate (p ++ w ++ s) := by
  have hvalue : valueFrom [] (canonical p ++ (rootGroup (canonical e) ++ canonical s)) =
      valueFrom [] (canonical p ++ (w ++ canonical s)) :=
    valueFrom_substitute hP he.canonical (isCanonical_canonical e) hw hwcan hnext (canonical p)
      hplace (isCanonical_canonical p) (isCanonical_canonical s)
  rw [evaluate_eq, evaluate_eq, canonical_append, canonical_append, canonical_append,
    canonical_append, canonical_rootGroup, canonical_eq_self hwcan, List.append_assoc,
    List.append_assoc]
  exact congrArg (Except.mapError EvaluationError.invalid) hvalue

end Substitution

/-! ## Literals -/

section Literal

variable {e l : Text} {x : Float}

/-- At the place itself, the group has become a literal like the other one. -/
lemma valueFrom_rootGroup (he : Balanced e) (hv : evaluate e = .ok x)
    (htext : IsLiteral x.sqrt (Shortest.text x.sqrt)) (hl : IsLiteral x.sqrt l) {done s : Text}
    (hplace : IsPlace done s) :
    valueFrom done (rootGroup e ++ s) = valueFrom done (l ++ s) := by
  have hroot : rootSign ∉ l := hl.not_mem (by decide)
  rw [valueFrom, valueFrom, expandRoots_rootGroup he (ne_nil_of_evaluate hv), hv,
    expandRoots_append_of_not_mem hroot]
  rcases hout : expandRoots s with err | out
  · rfl
  · exact arithmetic_literal htext hl hplace.endsApart (fun c hc => (hplace.before c hc).2.1)
      (startsApart_of_expandRoots hplace.after hout)

/-- A literal in the place of a group, given that the text of the value is a literal of it. -/
lemma evaluate_literal_for_group (he : Balanced e) (hv : evaluate e = .ok x)
    (htext : IsLiteral x.sqrt (Shortest.text x.sqrt)) (hl : IsLiteral x.sqrt l) {p s : Text}
    (hplace : IsPlace p s) : evaluate (p ++ rootGroup e ++ s) = evaluate (p ++ l ++ s) :=
  evaluate_substitute places_isPlace he hl.isOperand hl.isCanonical
    (valueFrom_rootGroup he.canonical (by rw [evaluate_canonical, hv]) htext hl) hplace.canonical

end Literal

/-- The text of a finite number that is not negative is a literal of it. -/
lemma isLiteral_text {x : Float} {m : Nat} {q : Int} (h : Binary64.ofFloat x = .finite false m q) :
    IsLiteral x (Shortest.text x) :=
  ⟨fun _ hc => Shortest.isPart_of_mem_text h hc, Shortest.read?_text h⟩

/-- The text of a finite square root is a literal of it, if there is one at all. -/
lemma isLiteral_text_sqrt {x : Float} {l : Text} (hx : x.isFinite = true)
    (hl : IsLiteral x.sqrt l) : IsLiteral x.sqrt (Shortest.text x.sqrt) := by
  obtain ⟨m, q, hroot⟩ := ofFloat_of_read? hl.isPart hl.reads (Binary64.sqrt_ne_infinity hx)
  exact isLiteral_text hroot

/-- **Root groups stand for their values.**  Let `e` be a balanced text with a finite value.  At
every place where a number stands by itself, the group `√(e)` may be replaced by any literal that
reads as the square root of that value: the whole text keeps its value, or its error.  (A value
whose square root is not a number has no such literal.)  The place may be surrounded by other root
groups, closed or not, and a square may follow. -/
theorem evaluate_root_eq_literal {p e s l : Text} {x : Float} (hplace : IsPlace p s)
    (he : Balanced e) (hv : evaluate e = .ok x) (hx : x.isFinite = true)
    (hl : IsLiteral x.sqrt l) : evaluate (p ++ rootGroup e ++ s) = evaluate (p ++ l ++ s) :=
  evaluate_literal_for_group he hv (isLiteral_text_sqrt hx hl) hl hplace

/-- The root of nine inside of another root, with a square behind it. -/
theorem evaluate_root_of_nine :
    evaluate ("2×√(1+".toList ++ rootGroup "(4+5)".toList ++ "²)".toList) =
      evaluate ("2×√(1+".toList ++ "3.0".toList ++ "²)".toList) := by
  have hv : evaluate "(4+5)".toList = .ok 9 := by
    rw [evaluate_of_not_mem (by decide) (by decide)]
    rfl
  have he : Balanced "(4+5)".toList :=
    (balanced_of_not_mem (t := "4+5".toList) (by decide) (by decide)).group
  have hplace : IsPlace "2×√(1+".toList "²)".toList := ⟨by simp; decide, by simp; decide⟩
  exact evaluate_root_eq_literal hplace he hv (by decide)
    ⟨List.all_eq_true.1 (by decide), by decide +kernel⟩

end Expression

end DeskCalculator
