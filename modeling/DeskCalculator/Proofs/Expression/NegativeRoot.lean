import DeskCalculator.Proofs.Expression.RootSubstitution
import DeskCalculator.Proofs.Expression.Scanner

/-!
# Roots of negative numbers

The square root of a negative number is not a number, and the word for that takes the place of its
root group.  Neither the squares nor the scanner know the word: they pass over its letters, so that
it does what a blank does (`arithmetic_append_passed`).  The group is therefore missing from the
text, whatever stands around it, and the evaluation goes on with the tokens on both sides.  It fails
where an operand is missing for that, and nowhere else.
-/

namespace DeskCalculator

namespace Expression

open Numeral
open Token (scan scanAfter)

/-! ### Words that are passed over -/

/-- A character that belongs to no number, makes no token and is no square. -/
def IsPassed (c : Char) : Prop :=
  isPart c = false ∧ Token.ofChar? c = none ∧ c ≠ squareSign

instance : DecidablePred IsPassed := fun _ => inferInstanceAs (Decidable (_ ∧ _))

lemma IsPassed.ne_star {c : Char} (hc : IsPassed c) : c ≠ '*' := by
  rintro rfl
  exact absurd hc.2.1 (by decide)

section

variable {w : Text}

lemma scan_passed (hw : ∀ c ∈ w, IsPassed c) (t : Text) : scan (w ++ t) = scan t := by
  induction w with
  | nil => rfl
  | cons c w ih =>
    have hc : IsPassed c := hw c List.mem_cons_self
    have hcut := Token.scanAfter_cut hc.1 hc.ne_star [] [] (w ++ t)
    rw [hc.2.1] at hcut
    exact hcut.trans (ih fun d hd => hw d (List.mem_cons_of_mem c hd))

/-- A word that is passed over separates the tokens on both sides. -/
lemma scan_append_passed (hw : ∀ c ∈ w, IsPassed c) (hne : w ≠ []) (s t : Text) :
    scan (s ++ (w ++ t)) = scan s ++ scan t := by
  obtain ⟨c, w, rfl⟩ := List.exists_cons_of_ne_nil hne
  have hc : IsPassed c := hw c List.mem_cons_self
  rw [List.cons_append, scan, Token.scanAfter_cut hc.1 hc.ne_star, hc.2.1, Option.toList_none,
    List.append_nil, scan_passed fun d hd => hw d (List.mem_cons_of_mem c hd)]
  rfl

/-- The squares on both sides of such a word have nothing to do with each other. -/
lemma squares_append_passed (hw : ∀ c ∈ w, IsPassed c) (hne : w ≠ []) (a b : Text) :
    squares (a ++ (w ++ b)) =
      squares a >>= fun u => squares b >>= fun v => .ok (u ++ (w ++ v)) := by
  have hsquare : squareSign ∉ w := fun hm => (hw _ hm).2.2 rfl
  have hhead : ∀ c ∈ (w ++ b).head?, isPart c = false ∧ c ≠ squareSign := by
    intro c hc
    rw [List.head?_append_of_ne_nil _ hne] at hc
    have hpassed := hw c (List.mem_of_mem_head? hc)
    exact ⟨hpassed.1, hpassed.2.2⟩
  have hends : EndsApart w := fun c hc => (hw c (List.mem_of_mem_getLast? hc)).1
  rw [squares_append_apart hhead, squares_append_of_endsApart (squares_eq_self hsquare) hends]
  simp only [bind_assoc]
  rfl

/-- What such a word is does not matter for the value of a text. -/
lemma arithmetic_append_passed (hw : ∀ c ∈ w, IsPassed c) (hne : w ≠ []) (a b : Text) :
    arithmetic (a ++ (w ++ b)) =
      squares a >>= fun u => squares b >>= fun v => value (scan u ++ scan v) := by
  rw [arithmetic, squares_append_passed hw hne, bind_assoc]
  refine congrArg (squares a >>= ·) (funext fun u => ?_)
  rw [bind_assoc]
  refine congrArg (squares b >>= ·) (funext fun v => ?_)
  exact congrArg value (scan_append_passed hw hne u v)

end

/-! ### Where an operand is missing -/

namespace Scanner

/-- The scanner behind the tokens, if it does not stop at one of them. -/
def behind (s : Scanner) (ts : List Token) : Option Scanner :=
  ts.foldlM (fun s t => (s.step t).getLeft?) s

lemma run_append_of_behind {s s' : Scanner} {ts : List Token} (h : s.behind ts = some s')
    (us : List Token) : s.run (ts ++ us) = s'.run us := by
  induction ts generalizing s with
  | nil =>
    obtain rfl : s = s' := Option.some.inj h
    rfl
  | cons t ts ih =>
    obtain ⟨s₁, hstep, hbehind⟩ := Option.bind_eq_some_iff.1 h
    rw [List.cons_append, run_of_inl (Sum.getLeft?_eq_some_iff.1 hstep)]
    exact ih hbehind

/-- Where an operand is wanted, the end and the tokens that do not begin one are errors. -/
lemma run_wanting_error (k : Nat) {ts : List Token} (hts : ∀ t ∈ ts.head?, t = .closing ∨
    ∃ op, t = .operator op ∧ op ≠ .add ∧ op ≠ .subtract) :
    ∃ e, (wanting k).run ts = .error e := by
  rcases ts with _ | ⟨t, ts⟩
  · exact ⟨_, rfl⟩
  · rcases hts t rfl with rfl | ⟨op, rfl, hadd, hsubtract⟩
    · exact ⟨_, run_of_inr rfl ts⟩
    · cases op with
      | add => exact absurd rfl hadd
      | subtract => exact absurd rfl hsubtract
      | _ => exact ⟨_, run_of_inr rfl ts⟩

end Scanner

/-- There is no value where an operand is wanted and none begins. -/
lemma exists_value_error {k : Nat} {ts us : List Token}
    (hts : (Scanner.wanting 0).behind ts = some (.wanting k))
    (hus : ∀ t ∈ us.head?, t = .closing ∨ ∃ op, t = .operator op ∧ op ≠ .add ∧ op ≠ .subtract) :
    ∃ e, value (ts ++ us) = .error e := by
  rcases (next_agrees (ts ++ us)).1 [] with hv | hv | hv
  · exact ⟨_, hv⟩
  · exact ⟨_, hv⟩
  · obtain ⟨e, he⟩ := Scanner.run_wanting_error k hus
    rw [openGroups, Scanner.run_append_of_behind hts, he] at hv
    rcases h : operandNext [] (ts ++ us) with e' | x
    · exact ⟨e', h⟩
    · rw [h] at hv
      cases hv

/-! ### The group -/

/-- The word in the place of the group is passed over like a blank. -/
lemma valueFrom_negativeRoot {e : Text} {x : Float} (he : Balanced e) (hv : evaluate e = .ok x)
    (hx : x < 0) (done s : Text) :
    valueFrom done (rootGroup e ++ s) = valueFrom done ([' '] ++ s) := by
  have hword : Shortest.text x.sqrt = "NaN".toList := by
    rw [Shortest.text, Binary64.ofFloat_sqrt_of_neg hx]
  have hletters : ∀ c ∈ "NaN".toList, IsPassed c := List.forall_iff_forall_mem.1 (by decide)
  have hblank : ∀ c ∈ [' '], IsPassed c := by simp; decide
  rw [valueFrom, valueFrom, expandRoots_rootGroup he (ne_nil_of_evaluate hv), hv,
    expandRoots_append_of_not_mem (by decide)]
  rcases expandRoots s with err | out
  · rfl
  · change arithmetic (done ++ (Shortest.text x.sqrt ++ out)) = arithmetic (done ++ ([' '] ++ out))
    rw [hword, arithmetic_append_passed hletters (by decide),
      arithmetic_append_passed hblank (by decide)]

/-- The group may be replaced by a blank. -/
lemma evaluate_negativeRoot {e : Text} {x : Float} (he : Balanced e) (hv : evaluate e = .ok x)
    (hx : x < 0) (p s : Text) : evaluate (p ++ rootGroup e ++ s) = evaluate (p ++ [' '] ++ s) := by
  have hany : Places fun _ _ => True := ⟨fun _ _ => trivial, fun _ => trivial⟩
  have hblank : IsOperand [' '] :=
    ⟨balanced_of_not_mem (by decide) (by decide), ' ', [], rfl, by decide⟩
  exact evaluate_substitute hany he hblank (by simp [IsCanonical]; rfl)
    (fun _ => valueFrom_negativeRoot he.canonical (by rw [evaluate_canonical, hv]) hx _ _) trivial

/-- A blank in a text without roots and squares separates the tokens on both sides. -/
lemma evaluate_blank {p s : Text} (hroot : rootSign ∉ p ++ s) (hsquare : squareSign ∉ p ++ s) :
    evaluate (p ++ [' '] ++ s) =
      (value (scan (canonical p) ++ scan (canonical s))).mapError .invalid := by
  have hcanonical : canonical (p ++ [' '] ++ s) = canonical p ++ ([' '] ++ canonical s) := by
    rw [canonical_append, canonical_append, List.append_assoc]
    rfl
  rw [evaluate_of_not_mem (by simpa [rootSign] using hroot)
    (by simpa [squareSign] using hsquare), hcanonical,
    scan_append_passed (by simp; decide) (by decide)]

/-- **Roots of negative numbers are passed over.**  Let `e` be a balanced text with a negative
value.  In any text, the group `√(e)` counts for as much as a blank.  So if there are no roots and
squares around it, the tokens on its left and on its right are evaluated as if they were
neighbours; and where the tokens on its left want an operand and those on its right begin none,
there is no value. -/
theorem evaluate_around_negativeRoot {e : Text} {x : Float} (he : Balanced e)
    (hv : evaluate e = .ok x) (hx : x < 0) (p s : Text) :
    evaluate (p ++ rootGroup e ++ s) = evaluate (p ++ [' '] ++ s) ∧
    (rootSign ∉ p ++ s → squareSign ∉ p ++ s →
      evaluate (p ++ rootGroup e ++ s) =
        (value (scan (canonical p) ++ scan (canonical s))).mapError .invalid ∧
      ∀ k, (Scanner.wanting 0).behind (scan (canonical p)) = some (.wanting k) →
        (∀ t ∈ (scan (canonical s)).head?,
          t = .closing ∨ ∃ op, t = .operator op ∧ op ≠ .add ∧ op ≠ .subtract) →
        ∃ err, evaluate (p ++ rootGroup e ++ s) = .error err) := by
  have hpassed := evaluate_negativeRoot he hv hx p s
  refine ⟨hpassed, fun hroot hsquare => ?_⟩
  have htokens := hpassed.trans (evaluate_blank hroot hsquare)
  refine ⟨htokens, fun k hp hs => ?_⟩
  obtain ⟨err, herr⟩ := exists_value_error hp hs
  exact ⟨err.invalid, by rw [htokens, herr]; rfl⟩

lemma evaluate_minusFour : evaluate "0-4".toList = .ok (-4) := by
  rw [evaluate_of_not_mem (by decide) (by decide)]
  rfl

/-- Two times the root of minus four, with another factor behind it. -/
theorem evaluate_around_root_of_minusFour :
    Balanced "0-4".toList ∧ evaluate "0-4".toList = .ok (-4) ∧ (-4 : Float) < 0 ∧
      evaluate "2×√(0-4)×3".toList = evaluate "2× ×3".toList ∧
      ∃ err, evaluate "2×√(0-4)×3".toList = .error err := by
  have he : Balanced "0-4".toList := balanced_of_not_mem (by decide) (by decide)
  have hneg : (-4 : Float) < 0 := by decide
  obtain ⟨hpassed, htokens⟩ :=
    evaluate_around_negativeRoot he evaluate_minusFour hneg "2×".toList "×3".toList
  obtain ⟨-, hfails⟩ := htokens (by decide) (by decide)
  refine ⟨he, evaluate_minusFour, hneg, hpassed, hfails 0 rfl ?_⟩
  rintro t ht
  obtain rfl : .operator .multiply = t := Option.some.inj ht
  exact Or.inr ⟨.multiply, rfl, by decide, by decide⟩

/-- With a sign behind it the operand is not missing any more: the sum of the root of minus four
and two is two. -/
theorem evaluate_root_of_minusFour_plus_two :
    Balanced "0-4".toList ∧ evaluate "0-4".toList = .ok (-4) ∧ (-4 : Float) < 0 ∧
      evaluate "√(0-4)+2".toList = .ok 2 := by
  have he : Balanced "0-4".toList := balanced_of_not_mem (by decide) (by decide)
  have hneg : (-4 : Float) < 0 := by decide
  refine ⟨he, evaluate_minusFour, hneg, ?_⟩
  refine (evaluate_negativeRoot he evaluate_minusFour hneg [] "+2".toList).trans ?_
  rw [evaluate_blank (by decide) (by decide)]
  rfl

end Expression

end DeskCalculator
