import DeskCalculator.Proofs.Expression.Literal
import DeskCalculator.Proofs.Number.Bits

/-!
# The order of the squares

Squares are computed one after the other, the leftmost one first, in the text as the earlier ones
have left it: `SquareStep` is one of these rewritings, and `squares` leads to the text in which
none is left (`squares_rewrites`).  What has been written for a square is not set apart from the
digits around it.  A `²` that follows the place of another one, with nothing but parts of numbers
in between, therefore squares the digits of that square together with what stands in between.

`squaresOnce` computes every square from the text as it was at first.  The two agree on every text
in which no `²` follows another one so (`Rereads`).
-/

namespace DeskCalculator

namespace Expression

open Numeral

/-! ### Every square from the first text -/

/-- Goes on with the squares of a text behind the digits and points of `run`, last one first. -/
def squaresOnceAfter (run : Text) : Text → Except EvaluationError Text
  | [] => .ok run.reverse
  | c :: t =>
    if isPart c then squaresOnceAfter (c :: run) t
    else if c = squareSign ∧ run ≠ [] then
      match read? run.reverse with
      | some x => (squaresOnceAfter [] t).map (Shortest.text (x * x) ++ ·)
      | none => .error (.invalidExpression (.invalidNumber run.reverse))
    else (squaresOnceAfter [] t).map (run.reverse ++ c :: ·)

/-- The text in which every run of digits and points with a `²` behind it is replaced, together
with the `²`, by the square of the number it reads as.  All other characters are kept. -/
def squaresOnce (t : Text) : Except EvaluationError Text :=
  squaresOnceAfter [] t

/-- Only parts of numbers stand in front of the next square. -/
def SquareNext (t : Text) : Prop :=
  (t.dropWhile isPart).head? = some squareSign

instance : DecidablePred SquareNext := fun _ => inferInstanceAs (Decidable (_ = _))

/-- A `²` follows the place of another one: the number of the first one has a finite square, which
is written with digits, and only parts of numbers stand between the two. -/
def Rereads (t : Text) : Prop :=
  ∃ a l x b, t = a ++ (l ++ squareSign :: b) ∧ EndsApart a ∧ IsLiteral x l ∧
    (x * x).isFinite = true ∧ SquareNext b

lemma SquareNext.cons {c : Char} (hc : isPart c = true) {t : Text} (h : SquareNext t) :
    SquareNext (c :: t) := by
  rwa [SquareNext, List.dropWhile_cons_of_pos hc]

lemma squareNext_cons (t : Text) : SquareNext (squareSign :: t) := by
  rw [SquareNext, List.dropWhile_cons_of_neg (by decide)]
  rfl

/-- Where nothing of a number is left over, it does not matter what stands in front. -/
lemma Rereads.behind {c : Char} (hc : isPart c = false) {t : Text} (h : Rereads t) (u : Text) :
    Rereads (u ++ c :: t) := by
  obtain ⟨a, l, x, b, rfl, ha, hl, hx, hb⟩ := h
  refine ⟨u ++ c :: a, l, x, b, by simp, fun d hd => ?_, hl, hx, hb⟩
  rw [List.getLast?_append_cons, List.getLast?_cons] at hd
  rcases hlast : a.getLast? with _ | e
  · rw [hlast] at hd
    obtain rfl : c = d := Option.some.inj hd
    exact hc
  · rw [hlast] at hd
    obtain rfl : e = d := Option.some.inj hd
    exact ha e hlast

lemma takeWhile_eq_nil_iff {w : Text} : w.takeWhile isPart = [] ↔ StartsApart w := by
  rcases w with _ | ⟨c, w⟩
  · simp [StartsApart]
  · by_cases hc : isPart c = true <;> simp [StartsApart, hc]

/-- A run with nothing of a number in front of it is found again. -/
lemma takeWhile_run {run w : Text} (hrun : ∀ c ∈ run, isPart c = true) (hw : StartsApart w) :
    (run ++ w).takeWhile isPart = run := by
  rw [takeWhile_append_apart hw, List.takeWhile_eq_self_iff.2 hrun]

lemma dropWhile_run {run w : Text} (hrun : ∀ c ∈ run, isPart c = true) (hw : StartsApart w) :
    (run ++ w).dropWhile isPart = w := by
  rw [dropWhile_append_apart hw, List.dropWhile_eq_nil_iff.2 hrun, List.nil_append]

/-- A square that is not finite is written with a word, which no number takes in. -/
lemma startsApart_text_of_not_finite {z : Float} (hz : z.isFinite = false) (w : Text) :
    StartsApart ((Shortest.text z).reverse ++ w) := by
  rcases Binary64.ofFloat_of_not_isFinite hz with h | ⟨negative, h⟩
  · rw [Shortest.text, h]
    exact startsApart_cons (by decide) _
  · rw [Shortest.text, h]
    cases negative <;> exact startsApart_cons (by decide) _

lemma squareSign_not_mem_text (z : Float) : squareSign ∉ Shortest.text z := by
  have hsign : ∀ negative : Bool, squareSign ∉ (if negative then ['-'] else []) := by decide
  intro hmem
  unfold Shortest.text at hmem
  split at hmem
  · exact absurd hmem (by decide)
  · exact (List.mem_append.1 hmem).elim (hsign _) (absurd · (by decide))
  · refine (List.mem_append.1 hmem).elim (hsign _) fun hmem => ?_
    split at hmem
    · exact absurd hmem (by decide)
    · exact absurd (Decimal.isPart_of_mem_plain hmem) (by decide)

/-- What has been written behind the last complete character is the run itself, unless digits of a
square come in front of it. -/
lemma squaresAfter_eq_once {run w t : Text} (hrun : ∀ c ∈ run, isPart c = true)
    (hw : StartsApart w ∨ ¬SquareNext t) (ht : ¬Rereads (run.reverse ++ t)) :
    squaresAfter (run ++ w) t = (squaresOnceAfter run t).map (w.reverse ++ ·) := by
  fun_induction squaresOnceAfter run t generalizing w with
  | case1 run => exact congrArg Except.ok List.reverse_append
  | case2 run c t hc ih =>
    have hne : c ≠ squareSign := ne_of_isPart hc (by decide)
    rw [squaresAfter_cons_of_ne hne]
    refine ih (List.forall_mem_cons.2 ⟨hc, hrun⟩) (hw.imp_right fun h hnext => ?_) ?_
    · exact h (hnext.cons hc)
    · rwa [List.reverse_cons, List.append_assoc]
  | case3 run c t hc hsquare x hx ih =>
    obtain ⟨rfl, hne⟩ := hsquare
    have hapart : StartsApart w := hw.resolve_right (not_not_intro (squareNext_cons t))
    have hrest : ¬Rereads t := fun h => ht (h.behind (by decide) run.reverse)
    have hwritten : StartsApart ((Shortest.text (x * x)).reverse ++ w) ∨ ¬SquareNext t := by
      rcases hfinite : (x * x).isFinite
      · exact Or.inl (startsApart_text_of_not_finite hfinite w)
      · have hl : IsLiteral x run.reverse := ⟨fun c hc => hrun c (List.mem_reverse.1 hc), hx⟩
        exact Or.inr fun hnext => ht ⟨[], _, x, t, rfl, by simp [EndsApart], hl, hfinite, hnext⟩
    rw [squaresAfter_square (by rw [takeWhile_run hrun hapart]) (by simpa using hne) hx,
      dropWhile_run hrun hapart]
    refine (ih (by simp) hwritten hrest).trans ?_
    rcases squaresOnceAfter [] t with e | out
    · rfl
    · simp [Except.map]
  | case4 run c t hc hsquare hx =>
    obtain ⟨rfl, hne⟩ := hsquare
    have hapart : StartsApart w := hw.resolve_right (not_not_intro (squareNext_cons t))
    have htake : (run ++ w).takeWhile isPart = run := takeWhile_run hrun hapart
    rw [squaresAfter, if_pos ⟨rfl, by rwa [htake]⟩, htake]
    simp only [hx]
    rfl
  | case5 run c t hc hkept ih =>
    have hpart : isPart c = false := by simpa using hc
    have hcopied : ¬(c = squareSign ∧ (run ++ w).takeWhile isPart ≠ []) := by
      rintro ⟨rfl, hne⟩
      obtain rfl : run = [] := by simpa using hkept
      have hapart : StartsApart w := hw.resolve_right (not_not_intro (squareNext_cons t))
      exact hne (takeWhile_eq_nil_iff.2 hapart)
    have hrest : ¬Rereads t := fun h => ht (h.behind hpart run.reverse)
    rw [squaresAfter, if_neg hcopied]
    refine (ih (by simp) (Or.inl (startsApart_cons hpart (run ++ w))) hrest).trans ?_
    rcases squaresOnceAfter [] t with e | out
    · rfl
    · simp [Except.map]

lemma squares_eq_once {t : Text} (ht : ¬Rereads t) : squares t = squaresOnce t := by
  have hnil : StartsApart [] := by simp [StartsApart]
  refine (@squaresAfter_eq_once [] [] t (by simp) (Or.inl hnil) ht).trans ?_
  rw [squaresOnce]
  rcases squaresOnceAfter [] t with e | out <;> rfl

/-! ### One square after the other -/

/-- A text in which no number has a `²` behind it. -/
def Squared (t : Text) : Prop :=
  t.IsChain fun c d => ¬(isPart c = true ∧ d = squareSign)

/-- The leftmost number with a `²` behind it is replaced, together with the `²`, by its square. -/
inductive SquareStep : Text → Text → Prop
  | square {a l b : Text} {x : Float} (hfirst : Squared a) (ha : EndsApart a)
      (hl : IsLiteral x l) :
      SquareStep (a ++ (l ++ squareSign :: b)) (a ++ (Shortest.text (x * x) ++ b))

/-- A text stays squared when something without square signs is put behind it. -/
lemma Squared.append {a s : Text} (ha : Squared a) (hs : squareSign ∉ s) : Squared (a ++ s) := by
  refine List.isChain_append.2 ⟨ha, ?_, ?_⟩
  · refine List.isChain_iff_forall_rel_of_append_cons_cons.2 ?_
    rintro c d u v rfl ⟨-, rfl⟩
    exact hs (by simp)
  · rintro c - d hd ⟨-, rfl⟩
    exact hs (List.mem_of_mem_head? hd)

/-- What is left when the number at the end is taken off. -/
lemma endsApart_dropWhile (written : Text) : EndsApart (written.dropWhile isPart).reverse := by
  intro c hc
  rw [List.getLast?_reverse] at hc
  have hdropped := List.head?_dropWhile_not isPart written
  rwa [Option.mem_def.1 hc] at hdropped

lemma SquareStep.append_right {t u : Text} (h : SquareStep t u) (v : Text) :
    SquareStep (t ++ v) (u ++ v) := by
  obtain @⟨a, l, b, x, hfirst, ha, hl⟩ := h
  simpa using SquareStep.square (b := b ++ v) hfirst ha hl

lemma squaresAfter_of_squared {written t : Text} (h : Squared (written.reverse ++ t)) :
    squaresAfter written t = .ok (written.reverse ++ t) := by
  induction t generalizing written with
  | nil => rw [squaresAfter, List.append_nil]
  | cons c t ih =>
    have hkept : ¬(c = squareSign ∧ written.takeWhile isPart ≠ []) := by
      rintro ⟨rfl, hne⟩
      refine hne (takeWhile_eq_nil_iff.2 fun d hd => Bool.eq_false_iff.2 fun hpart => ?_)
      exact (List.isChain_append.1 h).2.2 d (by simpa using hd) squareSign rfl ⟨hpart, rfl⟩
    have hmoved : written.reverse ++ c :: t = (c :: written).reverse ++ t := by simp
    rw [squaresAfter, if_neg hkept, hmoved]
    exact ih (by rwa [← hmoved])

lemma squares_of_squared {t : Text} (h : Squared t) : squares t = .ok t :=
  squaresAfter_of_squared h

lemma SquareStep.squares_eq {t u : Text} (h : SquareStep t u) : squares t = squares u := by
  obtain @⟨a, l, b, x, hfirst, ha, hl⟩ := h
  have hkept := squares_append_of_endsApart (squares_of_squared hfirst) ha
  rw [hkept, hkept, squares_literal_square hl, squares,
    squaresAfter_append_of_not_mem (squareSign_not_mem_text _), List.append_nil]

lemma squares_eq_of_reaches {t u : Text} (h : Relation.ReflTransGen SquareStep t u) :
    squares t = squares u := by
  induction h with
  | refl => rfl
  | tail _ hstep ih => exact ih.trans hstep.squares_eq

/-- Every text in the course of the computation is reached by rewriting. -/
lemma reaches_of_squaresAfter {written t out : Text} (hwritten : Squared written.reverse)
    (h : squaresAfter written t = .ok out) :
    Relation.ReflTransGen SquareStep (written.reverse ++ t) out ∧ Squared out := by
  fun_induction squaresAfter written t with
  | case1 written =>
    obtain rfl := Except.ok.inj h
    rw [List.append_nil]
    exact ⟨.refl, hwritten⟩
  | case2 written c t hc run x hx ih =>
    obtain ⟨rfl, hne⟩ := hc
    -- the run is the end of what has been written, and what stands in front of it is kept
    have hsplit : written.reverse = (written.dropWhile isPart).reverse ++ run := by
      rw [← List.reverse_append, List.takeWhile_append_dropWhile]
    have hfirst : Squared (written.dropWhile isPart).reverse :=
      List.IsChain.left_of_append (hsplit ▸ hwritten)
    have hl : IsLiteral x run :=
      ⟨fun c hc => List.mem_takeWhile_imp (List.mem_reverse.1 hc), hx⟩
    have hstep := SquareStep.square (b := t) hfirst (endsApart_dropWhile written) hl
    have hnext : Squared ((Shortest.text (x * x)).reverse ++ written.dropWhile isPart).reverse := by
      rw [List.reverse_append, List.reverse_reverse]
      exact hfirst.append (squareSign_not_mem_text _)
    obtain ⟨hsteps, hout⟩ := ih hnext h
    refine ⟨.head ?_ hsteps, hout⟩
    rw [hsplit]
    simpa using hstep
  | case3 written c t hc run hx => cases h
  | case4 written c t hc ih =>
    have hnext : Squared (c :: written).reverse := by
      rw [List.reverse_cons]
      refine List.isChain_append.2 ⟨hwritten, List.isChain_singleton c, ?_⟩
      rintro d hd e he ⟨hpart, rfl⟩
      refine hc ⟨by simpa using he, fun hnil => ?_⟩
      rw [List.getLast?_reverse] at hd
      exact absurd hpart (by simp [takeWhile_eq_nil_iff.1 hnil d hd])
    simpa using ih hnext h

lemma squares_eq_ok_iff {t out : Text} :
    squares t = .ok out ↔ Relation.ReflTransGen SquareStep t out ∧ Squared out := by
  refine ⟨fun h => reaches_of_squaresAfter (by simp [Squared]) h, ?_⟩
  rintro ⟨hsteps, hout⟩
  rw [squares_eq_of_reaches hsteps, squares_of_squared hout]

/-- A square takes the digits written for another one together with what stands behind them. -/
lemma squares_square_square {a l m b : Text} {x y : Float} (hfirst : Squared a)
    (ha : EndsApart a) (hl : IsLiteral x l) (hm : IsLiteral y (Shortest.text (x * x) ++ m)) :
    squares (a ++ (l ++ squareSign :: (m ++ squareSign :: b))) =
      squares (a ++ (Shortest.text (y * y) ++ b)) := by
  have hone := (SquareStep.square (b := m ++ squareSign :: b) hfirst ha hl).squares_eq
  have htwo := (SquareStep.square (b := b) hfirst ha hm).squares_eq
  rw [List.append_assoc] at htwo
  exact hone.trans htwo

/-- **The leftmost square comes first.**  Squares are computed by replacing the leftmost number
with a `²` behind it until there is none.  If no `²` follows the place of another one with only
parts of numbers in between, the text that comes out is the one in which every run of digits and
points of the given text is squared for itself, and nothing else is changed.  Where a `²` does
follow so, the digits of the first square are taken as a part of the number that is squared next. -/
theorem squares_rewrites (t : Text) :
    (∀ out, squares t = .ok out ↔ Relation.ReflTransGen SquareStep t out ∧ Squared out) ∧
      (¬Rereads t → squares t = squaresOnce t) ∧
      ∀ a l m b x y, t = a ++ (l ++ squareSign :: (m ++ squareSign :: b)) → Squared a →
        EndsApart a → IsLiteral x l → IsLiteral y (Shortest.text (x * x) ++ m) →
        squares t = squares (a ++ (Shortest.text (y * y) ++ b)) := by
  refine ⟨fun out => squares_eq_ok_iff, squares_eq_once, ?_⟩
  rintro a l m b x y rfl hfirst ha hl hm
  exact squares_square_square hfirst ha hl hm

/-- With an operator in between the two squares have nothing to do with each other, and without
one they have: nine and five become ninety-five. -/
theorem squares_of_three_and_five :
    ¬Rereads "3²+5²".toList ∧ squares "3²+5²".toList = squaresOnce "3²+5²".toList ∧
      squares "1+3²5²+2²".toList =
        squares ("1+".toList ++ (Shortest.text (95 * 95) ++ "+2²".toList)) := by
  have hapart : ¬Rereads "3²+5²".toList := by
    rintro ⟨a, l, x, b, heq, -, -, -, hnext⟩
    have htail : squareSign :: b ∈ "3²+5²".toList.tails :=
      (List.mem_tails _ _).2 ⟨a ++ l, by rw [heq, List.append_assoc]⟩
    have hnone : ∀ s ∈ "3²+5²".toList.tails, s.head? = some squareSign → ¬SquareNext s.tail := by
      decide
    exact hnone _ htail rfl hnext
  have hfirst : Squared "1+".toList := by simp [Squared]; decide
  have hends : EndsApart "1+".toList := endsApart_concat (by decide) ['1']
  have hthree : IsLiteral 3 "3".toList := ⟨List.all_eq_true.1 (by decide), by decide +kernel⟩
  have hnine : IsLiteral 95 (Shortest.text (3 * 3) ++ "5".toList) :=
    ⟨List.all_eq_true.1 (by decide +kernel), by decide +kernel⟩
  exact ⟨hapart, (squares_rewrites _).2.1 hapart,
    (squares_rewrites _).2.2 _ _ _ _ _ _ rfl hfirst hends hthree hnine⟩

/-- The squares of three and five side by side, as they are computed and each for itself. -/
theorem squares_of_three_beside_five :
    squares "3²5²".toList = .ok "9025".toList ∧ squaresOnce "3²5²".toList = .ok "925".toList := by
  decide +kernel

end Expression

end DeskCalculator
