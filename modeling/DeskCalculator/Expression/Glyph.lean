import DeskCalculator.Text.Blank

/-!
# Canonical form of the operators

The keys for multiplication, division and powers write glyphs of their own.  The canonical
form of a text has the arithmetic operators in their place: `×` becomes `*`, `÷` becomes
`/`, `^` becomes `**`, and every other character stays as it is.
-/

namespace DeskCalculator

namespace Expression

/-- What the character `c` becomes in canonical form. -/
def canonicalChar : Char → Text
  | '×' => ['*']
  | '÷' => ['/']
  | '^' => ['*', '*']
  | c => [c]

/-- The canonical form of a text. -/
def canonical (t : Text) : Text :=
  t.flatMap canonicalChar

theorem canonical_nil : canonical [] = [] := rfl

theorem canonical_cons (c : Char) (t : Text) :
    canonical (c :: t) = canonicalChar c ++ canonical t := rfl

theorem canonical_append (s t : Text) : canonical (s ++ t) = canonical s ++ canonical t :=
  List.flatMap_append

/-- A character that is neither made nor replaced occurs as often as before. -/
theorem count_canonical {c : Char} (hc : canonicalChar c = [c]) (h₁ : c ≠ '*') (h₂ : c ≠ '/')
    (t : Text) : (canonical t).count c = t.count c := by
  induction t with
  | nil => rfl
  | cons d t ih =>
    rw [canonical_cons, List.count_append, ih, List.count_cons, Nat.add_comm]
    congr 1
    unfold canonicalChar
    split
    · simp [h₁.symm, show ('×' == c) = false by
        simpa using fun h : '×' = c => absurd (h ▸ hc) (by decide)]
    · simp [h₂.symm, show ('÷' == c) = false by
        simpa using fun h : '÷' = c => absurd (h ▸ hc) (by decide)]
    · simp [h₁.symm, show ('^' == c) = false by
        simpa using fun h : '^' = c => absurd (h ▸ hc) (by decide)]
    · simp [List.count_cons]

end Expression

end DeskCalculator
