import DeskCalculator.Proofs.Expression.RootSubstitution
import DeskCalculator.Proofs.Expression.SquareRewriting
import DeskCalculator.Proofs.Number.Exact

/-!
# Substituted values as tokens

In primitive form there are values in the places of root groups (`RootPlace`) and in those of
numbers with a `²` behind them (`SquarePlace`).  A value is written with digits and perhaps a point,
and whether these make a token of their own is up to the characters next to them.  They do where
neither digits nor points stand next to the place, and the token then reads as the value
(`scan_primitive_of_substitutes`).  A `²` directly behind a root group squares its value in turn.
-/

namespace DeskCalculator

namespace Expression

open Numeral
open Token (scan)

/-! ### Places -/

/-- In the place of a root group, the square root `x` comes between `a` and `b`.  Both are without
root groups, and their squares have not been computed yet. -/
inductive RootPlace (t : Text) : Text → Float → Text → Prop
  | root {ps qs : List Piece} {inner : Text} {us vs : List Text} {y : Float}
      (hpieces : pieces (canonical t) = ps ++ .root inner :: qs)
      (hfront : ps.mapM Piece.expand = .ok us) (hinner : evaluate inner = .ok y)
      (hbehind : qs.mapM Piece.expand = .ok vs) :
      RootPlace t us.flatten y.sqrt vs.flatten

/-- In the place of a number with a `²` behind it, the square `x` comes between `a`, whose squares
have been computed, and `b`, whose squares have not. -/
inductive SquarePlace (t : Text) : Text → Float → Text → Prop
  | square {u a l b : Text} {y : Float} (hroots : expandRoots (canonical t) = .ok u)
      (hsteps : Relation.ReflTransGen SquareStep u (a ++ (l ++ squareSign :: b)))
      (hfirst : Squared a) (ha : EndsApart a) (hl : IsLiteral y l) :
      SquarePlace t a (y * y) b

/-- The value `x` is substituted between `a` and `b`. -/
inductive Substitutes (t a : Text) (x : Float) (b : Text) : Prop
  | root (h : RootPlace t a x b)
  | square (h : SquarePlace t a x b)

section

variable {t a b out : Text} {x : Float}

lemma RootPlace.expandRoots_eq (h : RootPlace t a x b) :
    expandRoots (canonical t) = .ok (a ++ (Shortest.text x ++ b)) := by
  obtain @⟨ps, qs, inner, us, vs, y, hpieces, hfront, hinner, hbehind⟩ := h
  have hroot : Piece.expand (.root inner) = .ok (Shortest.text y.sqrt) := by
    rw [Piece.expand, hinner]
    rfl
  rw [expandRoots, hpieces, List.mapM_append, List.mapM_cons, hfront, hroot, hbehind]
  change Except.ok (us ++ Shortest.text y.sqrt :: vs).flatten = _
  rw [List.flatten_append, List.flatten_cons]

/-- From its place on, a value is a part of the text like any other. -/
lemma Substitutes.primitive_eq (h : Substitutes t a x b) :
    primitive t = squares (a ++ (Shortest.text x ++ b)) := by
  rw [primitive_eq_expandRoots]
  cases h with
  | root h => exact congrArg (· >>= squares) h.expandRoots_eq
  | square h =>
    obtain @⟨u, a, l, b, y, hroots, hsteps, hfirst, ha, hl⟩ := h
    have hall := hsteps.tail (SquareStep.square (b := b) hfirst ha hl)
    exact (congrArg (· >>= squares) hroots).trans (squares_eq_of_reaches hall)

lemma Substitutes.exists_front (h : Substitutes t a x b) (hout : primitive t = .ok out) :
    ∃ a', squares a = .ok a' := by
  rw [h.primitive_eq, squares, squaresAfter_append] at hout
  rcases ha : squares a with e | a'
  · rw [show squaresAfter [] a = .error e from ha] at hout
    cases hout
  · exact ⟨a', rfl⟩

/-! ### Tokens -/

/-- A literal with neither digits nor points next to it, and with no `²` behind it, becomes a
token of its own. -/
lemma scan_squares_literal {a' l : Text} (ha : squares a = .ok a') (hends : EndsApart a')
    (hl : IsLiteral x l) (hb : ∀ c ∈ b.head?, isPart c = false ∧ c ≠ squareSign)
    (hout : squares (a ++ (l ++ b)) = .ok out) :
    ∃ b', squares b = .ok b' ∧ out = a' ++ l ++ b' ∧
      scan out = scan a' ++ .number l :: scan b' := by
  rw [squares_append_of_endsApart ha hends, squares_literal_apart hl hb] at hout
  rcases hb' : squares b with e | b'
  · rw [hb'] at hout
    cases hout
  · rw [hb'] at hout
    obtain rfl : a' ++ (l ++ b') = out := Except.ok.inj hout
    rw [← List.append_assoc]
    exact ⟨b', rfl, rfl,
      Token.scan_literal hends hl.isPart hl.ne_nil (startsApart_of_squares hb hb')⟩

/-- The root in front of a `²` is the number that this squares. -/
lemma RootPlace.squarePlace {a' : Text} (h : RootPlace t a x (squareSign :: b))
    (hx : IsLiteral x (Shortest.text x)) (ha : squares a = .ok a') (hends : EndsApart a') :
    SquarePlace t a' (x * x) b := by
  obtain ⟨hsteps, hfirst⟩ := squares_eq_ok_iff.1 ha
  refine .square h.expandRoots_eq ?_ hfirst hends hx
  exact hsteps.lift (· ++ (Shortest.text x ++ squareSign :: b)) fun _ _ hstep => hstep.append_right _

/-- **Substituted values are tokens unless something stands next to them.**  In the primitive form
of any text, a finite positive value that has been substituted for a root group or for a number
with a `²` behind it is one number token, which reads as the value, if neither a digit or point nor
another such value stands next to its place and no `²` stands directly behind it.  A root group
with a `²` directly behind it has its value squared in turn. -/
theorem scan_primitive_of_substitutes (hout : primitive t = .ok out)
    (hplace : Substitutes t a x b) (hfinite : x.isFinite = true) (hpos : 0 < x) :
    ∃ a', squares a = .ok a' ∧ (EndsApart a' →
      ((∀ c ∈ b.head?, isPart c = false ∧ c ≠ squareSign) →
        ∃ b', squares b = .ok b' ∧ out = a' ++ Shortest.text x ++ b' ∧
          scan out = scan a' ++ .number (Shortest.text x) :: scan b' ∧
          read? (Shortest.text x) = some x) ∧
      ∀ c, b = squareSign :: c → RootPlace t a x b → SquarePlace t a' (x * x) c) := by
  obtain ⟨m, q, hparts⟩ := Binary64.ofFloat_of_pos hfinite hpos
  have hx : IsLiteral x (Shortest.text x) := isLiteral_text hparts
  obtain ⟨a', ha'⟩ := hplace.exists_front hout
  rw [hplace.primitive_eq] at hout
  refine ⟨a', ha', fun hends => ⟨fun hb => ?_, ?_⟩⟩
  · obtain ⟨b', hb', heq, hscan⟩ := scan_squares_literal ha' hends hx hb hout
    exact ⟨b', hb', heq, hscan, hx.reads⟩
  · rintro c rfl hroot
    exact hroot.squarePlace hx ha' hends

end

/-! ### The root of nine -/

/-- A group with a nine inside of it. -/
lemma rootPlace_nine {t : Text} {ps qs : List Piece} {us vs : List Text}
    (hpieces : pieces (canonical t) = ps ++ .root ['9'] :: qs)
    (hfront : ps.mapM Piece.expand = .ok us) (hbehind : qs.mapM Piece.expand = .ok vs) :
    RootPlace t us.flatten 3 vs.flatten := by
  have hnine : evaluate ['9'] = .ok 9 := by
    rw [evaluate_of_not_mem (by decide) (by decide)]
    rfl
  have hroot : (9 : Float).sqrt = 3 := by decide +kernel
  exact hroot ▸ .root hpieces hfront hnine hbehind

/-- Between operators the value is a token, and in front of a square it is squared. -/
theorem scan_primitive_of_root_of_nine :
    primitive "2×√(9)+1".toList = .ok "2*3+1".toList ∧
      (∃ b', scan "2*3+1".toList = scan "2*".toList ++ .number (Shortest.text 3) :: scan b') ∧
      primitive "1+√(9)²".toList = .ok "1+9".toList ∧
      SquarePlace "1+√(9)²".toList "1+".toList (3 * 3) [] := by
  have hplace : RootPlace "2×√(9)+1".toList "2*".toList 3 "+1".toList :=
    @rootPlace_nine _ [.plain '2', .plain '*'] [.plain '+', .plain '1'] [['2'], ['*']] [['+'], ['1']]
      (by decide +kernel) rfl rfl
  have hsquare : RootPlace "1+√(9)²".toList "1+".toList 3 "²".toList :=
    @rootPlace_nine _ [.plain '1', .plain '+'] [.plain '²'] [['1'], ['+']] [['²']]
      (by decide +kernel) rfl rfl
  have hout : primitive "2×√(9)+1".toList = .ok "2*3+1".toList := by
    rw [primitive_eq]
    decide +kernel
  have hout' : primitive "1+√(9)²".toList = .ok "1+9".toList := by
    rw [primitive_eq]
    decide +kernel
  obtain ⟨a, ha, hbetween⟩ :=
    scan_primitive_of_substitutes hout (.root hplace) (by decide) (by decide)
  obtain rfl : "2*".toList = a := Except.ok.inj ha
  obtain ⟨b, -, -, hscan, -⟩ := (hbetween (endsApart_concat (by decide) ['2'])).1 (by simp; decide)
  obtain ⟨a, ha, hfront⟩ :=
    scan_primitive_of_substitutes hout' (.root hsquare) (by decide) (by decide)
  obtain rfl : "1+".toList = a := Except.ok.inj ha
  exact ⟨hout, ⟨b, hscan⟩, hout',
    (hfront (endsApart_concat (by decide) ['1'])).2 [] rfl hsquare⟩

/-- Neither the root that is squared in turn nor the one with a digit in front of it can be read
off a token. -/
theorem scan_primitive_of_two_beside_root_of_nine :
    (RootPlace "√(9)²".toList [] 3 "²".toList ∧ primitive "√(9)²".toList = .ok "9".toList ∧
      scan "9".toList = [.number ['9']] ∧ read? ['9'] ≠ some 3) ∧
    RootPlace "2√(9)".toList ['2'] 3 [] ∧ primitive "2√(9)".toList = .ok "23".toList ∧
      scan "23".toList = [.number ['2', '3']] ∧ read? ['2', '3'] ≠ some 3 := by
  refine ⟨⟨?_, ?_, by decide, by decide +kernel⟩, ?_, ?_, by decide, by decide +kernel⟩
  · exact @rootPlace_nine _ [] [.plain '²'] [] [['²']] (by decide +kernel) rfl rfl
  · rw [primitive_eq]
    decide +kernel
  · exact @rootPlace_nine _ [.plain '2'] [] [['2']] [] (by decide +kernel) rfl rfl
  · rw [primitive_eq]
    decide +kernel

end Expression

end DeskCalculator
