import DeskCalculator.Proofs.Expression.Literal
import DeskCalculator.Proofs.Number.ReadBack

/-!
# Shown numbers as text

What the display shows of a finite number is put in front of what the user types next, and so it
has to be looked at as a piece of arithmetic text.  A number that is written out in full is a
literal, perhaps behind a minus (`IsSigned`), and reads as one number.  In scientific form the
number is two literals with an `e` and a sign between them (`IsShown`).  Every finite number is
shown in one of these ways (`isShown_text`).
-/

namespace DeskCalculator

namespace Expression

open Numeral Decimal

/-! ### Digits and points -/

/-- A run of digits and points that reads as a decimal number is a literal. -/
lemma isLiteral_of_unsigned? {l : Text} {d : Decimal} (hl : ∀ c ∈ l, isPart c = true)
    (h : unsigned? l = some d) : IsLiteral d.value l where
  isPart := hl
  reads := by
    cases l with
    | nil => exact absurd (show none = some d from h) (by simp)
    | cons c t =>
      rw [read?, ofText?_of_isPart (hl c List.mem_cons_self), h]
      rfl

lemma exists_isLiteral_digits {digits : Text} (hd : AllDigits digits) (hne : digits ≠ []) :
    ∃ x, IsLiteral x digits :=
  ⟨_, isLiteral_of_unsigned? (fun c hc => isPart_of_isDigit (hd c hc))
    (unsigned?_digits hd hne)⟩

lemma exists_isLiteral_withPoint {digits : Text} (hd : AllDigits digits) (hne : digits ≠ [])
    (places : Nat) : ∃ x, IsLiteral x (withPoint digits places) := by
  by_cases hp : places = 0
  · rw [withPoint, if_pos hp]
    exact exists_isLiteral_digits hd hne
  · obtain ⟨whole, fraction, hw, hf, hwhole, -, -, heq⟩ := withPoint_eq hd hp
    have hread := unsigned?_point hw hf hwhole
    rw [← heq] at hread
    exact ⟨_, isLiteral_of_unsigned? (fun c hc => isPart_of_mem_withPoint hd hc) hread⟩

/-! ### A number with its sign -/

/-- The text is a literal, with a minus in front of it or without, and reads as `x`. -/
inductive IsSigned : Float → Text → Prop
  | plain {x : Float} {l : Text} (hl : IsLiteral x l) : IsSigned x l
  | minus {x : Float} {l : Text} (hl : IsLiteral x l) : IsSigned (-x) ('-' :: l)

lemma IsSigned.reads {x : Float} {t : Text} (h : IsSigned x t) : read? t = some x := by
  cases h with
  | plain hl => exact hl.reads
  | @minus x l hl =>
    obtain ⟨c, l, rfl⟩ := List.exists_cons_of_ne_nil hl.ne_nil
    have hc : isPart c = true := hl.isPart c List.mem_cons_self
    have hread := hl.reads
    rw [read?, ofText?_of_isPart hc] at hread
    rw [read?, ofText?_minus hc]
    cases hu : unsigned? (c :: l) with
    | none =>
      rw [hu] at hread
      exact absurd hread (by simp)
    | some d =>
      rw [hu] at hread
      obtain rfl : d.value = x := Option.some.inj hread
      rfl

/-- The characters of a number with its sign. -/
lemma IsSigned.mem {x : Float} {t : Text} (h : IsSigned x t) {c : Char} (hc : c ∈ t) :
    c = '-' ∨ isPart c = true := by
  cases h with
  | plain hl => exact Or.inr (hl.isPart c hc)
  | minus hl =>
    rcases List.mem_cons.1 hc with rfl | hc
    · exact Or.inl rfl
    · exact Or.inr (hl.isPart c hc)

lemma isSigned_of_isLiteral {x : Float} {l : Text} (hl : IsLiteral x l) (negative : Bool) :
    ∃ y, IsSigned y ((if negative then ['-'] else []) ++ l) := by
  cases negative with
  | false => exact ⟨x, .plain hl⟩
  | true => exact ⟨-x, .minus hl⟩

/-! ### What is shown -/

/-- How a finite number is shown: written out in full, or in scientific form. -/
inductive IsShown : Text → Prop
  | plain {x : Float} {t : Text} (ht : IsSigned x t) : IsShown t
  | scientific {x y : Float} {mantissa digits : Text} (sign : Operator)
      (hsign : sign = .add ∨ sign = .subtract) (hm : IsSigned x mantissa)
      (hd : IsLiteral y digits) : IsShown (mantissa ++ 'e' :: sign.glyph :: digits)

lemma isShown_scientific (negative : Bool) (d : Decimal) :
    IsShown ((if negative then ['-'] else []) ++ d.scientific) := by
  obtain ⟨mantissa, digits, places, sign, hm, hmne, hd, hdne, hsign, heq⟩ := d.scientific_eq
  obtain ⟨x, hx⟩ := exists_isLiteral_withPoint hm hmne places
  obtain ⟨y, hy⟩ := exists_isLiteral_digits hd hdne
  obtain ⟨z, hz⟩ := isSigned_of_isLiteral hx negative
  rw [heq, ← List.append_assoc]
  rcases hsign with rfl | rfl
  · exact .scientific .subtract (Or.inr rfl) hz hy
  · exact .scientific .add (Or.inl rfl) hz hy

lemma isShown_fraction (negative : Bool) (num den : Nat) :
    IsShown ((if negative then ['-'] else []) ++ Display.fraction num den) := by
  rcases Display.fraction_eq num den with ⟨digits, places, hd, hne, heq⟩ | ⟨d, hd⟩
  · obtain ⟨x, hx⟩ := exists_isLiteral_withPoint hd hne places
    obtain ⟨y, hy⟩ := isSigned_of_isLiteral hx negative
    rw [heq]
    exact .plain hy
  · rw [hd]
    exact isShown_scientific negative d

/-- **Finite numbers are shown as literals.**  The display shows a finite number written out in
full or in scientific form. -/
lemma isShown_text {x : Float} (hx : x.isFinite = true) : IsShown (Display.text x) := by
  obtain ⟨negative, m, q, h⟩ := Binary64.exists_ofFloat_of_isFinite hx
  rw [Display.text, h]
  dsimp only
  split
  · obtain ⟨y, hy⟩ : ∃ y, IsLiteral y ['0'] :=
      exists_isLiteral_digits (by simp [AllDigits]) (by simp)
    exact .plain (.plain hy)
  · exact isShown_fraction negative _ _

/-- Only the scientific form has an `e`. -/
lemma IsSigned.not_mem {x : Float} {t : Text} (h : IsSigned x t) : 'e' ∉ t := by
  intro he
  rcases h.mem he with he | he
  · exact absurd he (by decide)
  · exact absurd he (by decide)

end Expression

end DeskCalculator
