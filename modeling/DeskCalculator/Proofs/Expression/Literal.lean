import DeskCalculator.Proofs.Expression.Primitive
import DeskCalculator.Proofs.Expression.Scanning
import DeskCalculator.Proofs.Number.DecimalText
import Mathlib.Data.List.TakeWhile

/-!
# Literals that read as the same number

A literal is a run of digits and points that reads as a number.  Where it stands by itself, which
is to say that neither the text in front of it ends nor the text behind it starts with a part of a
number, only the number that it reads as counts for the value of the text, and not how it is
written (`arithmetic_literal`).  If a `²` follows, this holds because the square is computed from
the number; otherwise the literal becomes a token of its own, and the value looks at no more than
what the token reads as.
-/

namespace DeskCalculator

namespace Expression

open Numeral

/-- A run of digits and points that reads as `x`. -/
structure IsLiteral (x : Float) (l : Text) : Prop where
  isPart : ∀ c ∈ l, isPart c = true
  reads : read? l = some x

lemma IsLiteral.ne_nil {x : Float} {l : Text} (hl : IsLiteral x l) : l ≠ [] := by
  rintro rfl
  exact absurd (show none = some x from hl.reads) (by simp)

/-- No character of a literal is one that is no part of a number. -/
lemma IsLiteral.ne_of_mem {x : Float} {l : Text} (hl : IsLiteral x l) {c d : Char} (hc : c ∈ l)
    (hd : Numeral.isPart d = false) : c ≠ d :=
  ne_of_isPart (hl.isPart c hc) hd

lemma IsLiteral.not_mem {x : Float} {l : Text} (hl : IsLiteral x l) {d : Char}
    (hd : Numeral.isPart d = false) : d ∉ l :=
  fun hmem => hl.ne_of_mem hmem hd rfl

/-- A text behind which a number starts anew. -/
def EndsApart (t : Text) : Prop := ∀ c ∈ t.getLast?, isPart c = false

/-- A text in front of which a number is complete. -/
def StartsApart (t : Text) : Prop := ∀ c ∈ t.head?, isPart c = false

lemma endsApart_concat {c : Char} (hc : isPart c = false) (t : Text) : EndsApart (t ++ [c]) := by
  intro d hd
  obtain rfl : c = d := by simpa using hd
  exact hc

lemma startsApart_cons {c : Char} (hc : isPart c = false) (t : Text) : StartsApart (c :: t) := by
  intro d hd
  obtain rfl : c = d := by simpa using hd
  exact hc

lemma EndsApart.reverse {t : Text} (ht : EndsApart t) : StartsApart t.reverse := by
  intro c hc
  rw [List.head?_reverse] at hc
  exact ht c hc

/-! ## Squares -/

lemma squaresAfter_square {written run : Text} (hrun : (written.takeWhile isPart).reverse = run)
    (hne : run ≠ []) {x : Float} (hx : read? run = some x) (t : Text) :
    squaresAfter written (squareSign :: t) =
      squaresAfter ((Shortest.text (x * x)).reverse ++ written.dropWhile isPart) t := by
  have hwritten : written.takeWhile isPart ≠ [] := by
    rintro hnil
    rw [hnil] at hrun
    exact hne hrun.symm
  rw [squaresAfter, if_pos ⟨rfl, hwritten⟩]
  simp only [hrun, hx]

/-- The squares of a text in two parts. -/
lemma squaresAfter_append (written s t : Text) :
    squaresAfter written (s ++ t) =
      squaresAfter written s >>= fun out => squaresAfter out.reverse t := by
  fun_induction squaresAfter written s with
  | case1 written => exact congrArg (squaresAfter · t) (List.reverse_reverse written).symm
  | case2 written c s hc run x hx ih =>
    rw [List.cons_append, squaresAfter, if_pos hc]
    simp only [show read? (written.takeWhile isPart).reverse = some x from hx]
    exact ih
  | case3 written c s hc run hx =>
    rw [List.cons_append, squaresAfter, if_pos hc]
    simp only [show read? (written.takeWhile isPart).reverse = none from hx]
    rfl
  | case4 written c s hc ih =>
    rw [List.cons_append, squaresAfter, if_neg hc]
    exact ih

/-- Squares do not look beyond a character that is no part of a number. -/
lemma squaresAfter_append_written {w : Text} (hw : StartsApart w) (u t : Text) :
    squaresAfter (u ++ w) t = squaresAfter u t >>= fun out => .ok (w.reverse ++ out) := by
  fun_induction squaresAfter u t with
  | case1 u => exact congrArg Except.ok List.reverse_append
  | case2 u c t hc run x hx ih =>
    rw [squaresAfter, if_pos (by rwa [takeWhile_append_apart hw]), takeWhile_append_apart hw,
      dropWhile_append_apart hw]
    simp only [show read? (u.takeWhile isPart).reverse = some x from hx]
    rw [← List.append_assoc]
    exact ih
  | case3 u c t hc run hx =>
    rw [squaresAfter, if_pos (by rwa [takeWhile_append_apart hw]), takeWhile_append_apart hw]
    simp only [show read? (u.takeWhile isPart).reverse = none from hx]
    rfl
  | case4 u c t hc ih =>
    rw [squaresAfter, if_neg (by rwa [takeWhile_append_apart hw])]
    exact ih

/-- What has been written does not go on as a number with what follows, and is kept. -/
lemma squares_append_of_endsApart {a out : Text} (ha : squares a = .ok out) (hout : EndsApart out)
    (t : Text) : squares (a ++ t) = squares t >>= fun rest => .ok (out ++ rest) := by
  rw [squares, squaresAfter_append, show squaresAfter [] a = .ok out from ha]
  refine (squaresAfter_append_written hout.reverse [] t).trans ?_
  rw [List.reverse_reverse]
  rfl

lemma squaresAfter_cons_apart {c : Char} (hpart : isPart c = false) (hc : c ≠ squareSign)
    (written t : Text) : squaresAfter written (c :: t) =
      squares t >>= fun rest => .ok (written.reverse ++ c :: rest) := by
  rw [squaresAfter_cons_of_ne hc]
  refine (squaresAfter_append_written (startsApart_cons hpart written) [] t).trans ?_
  simp only [List.reverse_cons, List.append_assoc]
  rfl

/-- A character that is neither part of a number nor a square separates the squares in front of
it from those behind. -/
lemma squares_append_apart {t : Text} (ht : ∀ c ∈ t.head?, isPart c = false ∧ c ≠ squareSign)
    (s : Text) : squares (s ++ t) =
      squares s >>= fun out => squares t >>= fun rest => .ok (out ++ rest) := by
  rw [squares, squaresAfter_append]
  refine congrArg (squares s >>= ·) (funext fun out => ?_)
  rcases t with _ | ⟨c, t⟩
  · rw [squaresAfter, List.reverse_reverse]
    exact congrArg Except.ok (List.append_nil out).symm
  · obtain ⟨hpart, hc⟩ := ht c rfl
    rw [squaresAfter_cons_apart hpart hc, List.reverse_reverse,
      show squares (c :: t) = _ from squaresAfter_cons_apart hpart hc [] t]
    rcases squares t with e | rest <;> rfl

lemma startsApart_of_squares {t out : Text}
    (ht : ∀ c ∈ t.head?, isPart c = false ∧ c ≠ squareSign) (h : squares t = .ok out) :
    StartsApart out := by
  rcases t with _ | ⟨c, t⟩
  · obtain rfl : [] = out := Except.ok.inj h
    simp [StartsApart]
  · obtain ⟨hpart, hc⟩ := ht c rfl
    rw [squares, squaresAfter_cons_apart hpart hc] at h
    rcases hrest : squares t with e | rest
    · rw [hrest] at h
      cases h
    · rw [hrest] at h
      obtain rfl : c :: rest = out := Except.ok.inj h
      exact startsApart_cons hpart rest

/-- A text that ends with something else than a number and a square still does so when its
squares are computed. -/
lemma endsApart_of_squares {a out : Text} (ha : EndsApart a)
    (hsq : ∀ c ∈ a.getLast?, c ≠ squareSign) (h : squares a = .ok out) : EndsApart out := by
  rcases List.eq_nil_or_concat a with rfl | ⟨a', c, rfl⟩
  · obtain rfl : out = [] := (Except.ok.inj h).symm
    exact ha
  · rw [List.concat_eq_append] at ha hsq h
    rw [squares, squaresAfter_append] at h
    have hc : c ≠ squareSign := hsq c List.getLast?_concat
    rcases hfirst : squaresAfter [] a' with e | first
    · rw [hfirst] at h
      cases h
    · rw [hfirst] at h
      obtain rfl : first ++ [c] = out := by
        have hlast : squaresAfter first.reverse [c] = .ok out := h
        rw [squaresAfter_cons_of_ne hc, squaresAfter, List.reverse_cons,
          List.reverse_reverse] at hlast
        exact Except.ok.inj hlast
      intro d hd
      rw [List.getLast?_concat] at hd
      exact ha d (by rw [List.getLast?_concat]; exact hd)

section

variable {x : Float} {l : Text}

/-- A literal in front of a square is squared itself. -/
lemma squares_literal_square (hl : IsLiteral x l) (b : Text) :
    squares (l ++ squareSign :: b) = squaresAfter (Shortest.text (x * x)).reverse b := by
  have hparts : ∀ c ∈ l.reverse, isPart c = true := fun c hc => hl.isPart c (List.mem_reverse.1 hc)
  have hrun : (l.reverse.takeWhile isPart).reverse = l := by
    rw [List.takeWhile_eq_self_iff.2 hparts, List.reverse_reverse]
  rw [squares, squaresAfter_append_of_not_mem (hl.not_mem (by decide)), List.append_nil,
    squaresAfter_square hrun hl.ne_nil hl.reads, List.dropWhile_eq_nil_iff.2 hparts,
    List.append_nil]

/-- A literal that something else than a number or a square follows is kept. -/
lemma squares_literal_apart (hl : IsLiteral x l) {b : Text}
    (hb : ∀ c ∈ b.head?, isPart c = false ∧ c ≠ squareSign) :
    squares (l ++ b) = squares b >>= fun out => .ok (l ++ out) := by
  rw [squares_append_apart hb, squares_eq_self (hl.not_mem (by decide))]
  rfl

end

/-- The squares of a text that starts with a literal: the literal is squared itself, or it is
kept, or the rest fails. -/
lemma squares_literal_append {x : Float} {b : Text} (hb : StartsApart b) :
    (∃ r, ∀ l, IsLiteral x l → squares (l ++ b) = r) ∨
      ∃ b', StartsApart b' ∧ ∀ l, IsLiteral x l → squares (l ++ b) = .ok (l ++ b') := by
  by_cases hsquare : squareSign ∈ b.head?
  · obtain ⟨b, rfl⟩ : ∃ b', b = squareSign :: b' := List.head?_eq_some_iff.1 hsquare
    exact Or.inl ⟨_, fun l hl => squares_literal_square hl b⟩
  have hapart : ∀ c ∈ b.head?, isPart c = false ∧ c ≠ squareSign :=
    fun c hc => ⟨hb c hc, fun h => hsquare (h ▸ hc)⟩
  rcases hb' : squares b with e | out
  · refine Or.inl ⟨.error e, fun l hl => ?_⟩
    rw [squares_literal_apart hl hapart, hb']
    rfl
  · refine Or.inr ⟨out, startsApart_of_squares hapart hb', fun l hl => ?_⟩
    rw [squares_literal_apart hl hapart, hb']
    rfl

/-! ## Tokens -/

/-- The value of a token list does not change when a number is written in another way. -/
lemma next_number {l₁ l₂ : Text} {x : Float} (h₁ : read? l₁ = some x) (h₂ : read? l₂ = some x)
    (ss ts : List Token) :
    (∀ fs, operandNext fs (ss ++ .number l₁ :: ts) = operandNext fs (ss ++ .number l₂ :: ts)) ∧
      ∀ y fs, operatorNext y fs (ss ++ .number l₁ :: ts) =
        operatorNext y fs (ss ++ .number l₂ :: ts) := by
  -- the two states of the machine call each other, and so both claims are carried along
  induction ss with
  | nil =>
    refine ⟨fun fs => ?_, fun y fs => ?_⟩
    · rw [List.nil_append, List.nil_append, operandNext, operandNext, h₁, h₂]
    · rw [List.nil_append, List.nil_append, operatorNext, operatorNext] <;> simp
  | cons k ss ih =>
    obtain ⟨ihOperand, ihOperator⟩ := ih
    refine ⟨fun fs => ?_, fun y fs => ?_⟩
    · rcases k with digits | op | _ | _
      · simp only [List.cons_append, operandNext, ihOperator]
      · cases op <;> simp only [List.cons_append, operandNext, ihOperand]
      · simp only [List.cons_append, operandNext, ihOperand]
      · simp only [List.cons_append, operandNext]
    · rcases k with digits | op | _ | _ <;>
        simp only [List.cons_append, operatorNext, ihOperand, ihOperator]

lemma value_number {l₁ l₂ : Text} {x : Float} (h₁ : read? l₁ = some x) (h₂ : read? l₂ = some x)
    (ss ts : List Token) : value (ss ++ .number l₁ :: ts) = value (ss ++ .number l₂ :: ts) :=
  (next_number h₁ h₂ ss ts).1 []

/-! ## Texts without roots -/

/-- The value of a text in which no roots are left. -/
def arithmetic (t : Text) : Except EvaluationError Float :=
  squares t >>= fun u => value (Token.scan u)

lemma evaluate_eq (t : Text) :
    evaluate t = (expandRoots (canonical t) >>= arithmetic).mapError .invalid := by
  rw [evaluate, primitive_eq_expandRoots]
  rcases expandRoots (canonical t) with e | u
  · rfl
  · change ((squares u).mapError EvaluationError.invalid >>= fun w =>
        (value (Token.scan w)).mapError EvaluationError.invalid) =
      (squares u >>= fun w => value (Token.scan w)).mapError EvaluationError.invalid
    rcases squares u with e | w <;> rfl

/-- **How a literal is written does not matter.**  In the place of a literal that stands by
itself every other literal that reads as the same number gives the same value, or the same
error. -/
lemma arithmetic_literal {x : Float} {l₁ l₂ : Text} (h₁ : IsLiteral x l₁) (h₂ : IsLiteral x l₂)
    {a b : Text} (ha : EndsApart a) (hsq : ∀ c ∈ a.getLast?, c ≠ squareSign)
    (hb : StartsApart b) : arithmetic (a ++ (l₁ ++ b)) = arithmetic (a ++ (l₂ ++ b)) := by
  have hsquares : ∀ l, squares (a ++ (l ++ b)) =
      squares a >>= fun out => squaresAfter out.reverse (l ++ b) :=
    fun l => squaresAfter_append [] a (l ++ b)
  rcases haout : squares a with e | out
  · rw [arithmetic, arithmetic, hsquares, hsquares, haout]
    rfl
  -- what stands in front of the literal has no part in the squares behind it
  have hout : EndsApart out := endsApart_of_squares ha hsq haout
  have hbehind : ∀ l, squares (a ++ (l ++ b)) =
      squares (l ++ b) >>= fun rest => .ok (out ++ rest) :=
    fun l => squares_append_of_endsApart haout hout (l ++ b)
  rcases squares_literal_append (x := x) hb with ⟨r, hr⟩ | ⟨b', hb', hkept⟩
  · rw [arithmetic, arithmetic, hbehind, hbehind, hr l₁ h₁, hr l₂ h₂]
  · have hvalue : ∀ l, IsLiteral x l → arithmetic (a ++ (l ++ b)) =
        value (Token.scan out ++ .number l :: Token.scan b') := by
      intro l hl
      rw [arithmetic, hbehind, hkept l hl, ← Token.scan_literal hout hl.isPart hl.ne_nil hb',
        List.append_assoc]
      rfl
    rw [hvalue l₁ h₁, hvalue l₂ h₂]
    exact value_number h₁.reads h₂.reads _ _

end Expression

end DeskCalculator
