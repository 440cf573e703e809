import DeskCalculator.Proofs.Expression.Parsing
import DeskCalculator.Proofs.Expression.ShownNumber

/-!
# Going on from a shown number

What a shown number is worth as the beginning of an expression.  The machine reads the text behind
it chunk by chunk: a literal is an operand (`operandNext_literal`), and an operator with the literal
behind it puts a frame on the stack (`operatorNext_chunk`).  A number that is written out in full is
the left operand of the operator that follows it.  In scientific form it is not one operand: the
`e` belongs to no token, and so mantissa and exponent are two operands, with the sign of the
exponent as the operator between them (`value_scientific`).
-/

namespace DeskCalculator

namespace Token

open Expression (StartsApart)

lemma head?_literal_ne_star {x : Float} {l : Text} (hl : Expression.IsLiteral x l) (t : Text) :
    ∀ c ∈ (l ++ t).head?, c ≠ '*' := by
  intro c hc
  rw [List.head?_append_of_ne_nil l hl.ne_nil] at hc
  exact hl.ne_of_mem (List.mem_of_mem_head? hc) (by decide)

/-- A literal in front is one number. -/
lemma scan_literal_append {x : Float} {l : Text} (hl : Expression.IsLiteral x l) {t : Text}
    (ht : StartsApart t) : scan (l ++ t) = number l :: scan t := by
  have h := scan_literal (s := []) (by simp) hl.isPart hl.ne_nil ht
  rwa [List.nil_append, scan_nil, List.nil_append] at h

/-- An operator in front is one token, unless a star behind it makes it another one. -/
lemma scan_written (op : Operator) {t : Text} (ht : ∀ c ∈ t.head?, c ≠ '*') :
    scan (op.written ++ t) = operator op :: scan t := by
  cases op with
  | add => exact scanAfter_cons_of_ne (by decide) [] t
  | subtract => exact scanAfter_cons_of_ne (by decide) [] t
  | multiply => exact scanAfter_star ht []
  | divide => exact scanAfter_cons_of_ne (by decide) [] t
  | raise => exact scanAfter_star_star [] t

/-- The mark of an exponent belongs to no token. -/
lemma scan_exponentMark (t : Text) : scan ('e' :: t) = scan t :=
  scanAfter_cons_of_ne (by decide) [] t

end Token

namespace Expression

open Token

lemma startsApart_nil : StartsApart [] := by
  simp [StartsApart]

lemma startsApart_written (op : Operator) (t : Text) : StartsApart (op.written ++ t) := by
  cases op <;> simp [StartsApart, Operator.written, Numeral.isPart]

/-! ### Reading chunk by chunk -/

section

variable {x y : Float} {l t : Text}

lemma operandNext_literal (hl : IsLiteral x l) (ht : StartsApart t) (fs : List Frame) :
    operandNext fs (scan (l ++ t)) = operatorNext x fs (scan t) := by
  rw [scan_literal_append hl ht, operandNext, hl.reads]

/-- A sign at the very beginning of a text belongs to the number behind it. -/
lemma value_signed (hl : IsSigned x l) (ht : StartsApart t) :
    value (scan (l ++ t)) = operatorNext x [] (scan t) := by
  cases hl with
  | plain hl => exact operandNext_literal hl ht []
  | @minus x l hl =>
    have hscan : scan ('-' :: l ++ t) = .operator .subtract :: scan (l ++ t) :=
      scan_written .subtract (head?_literal_ne_star hl t)
    have hpush : push (.sign true) [] = .ok [.sign true] := rfl
    rw [value, hscan, operandNext, hpush]
    exact (operandNext_literal hl ht [.sign true]).trans (operatorNext_sign x true [] _)

/-- An operator that completes nothing waits while the literal behind it is read. -/
lemma operatorNext_chunk (op : Operator) (hl : IsLiteral y l) (ht : StartsApart t)
    (fs : List Frame) (hs : Settled op.settles fs) (hn : nesting fs < nestingLimit) (x : Float) :
    operatorNext x fs (scan (op.written ++ (l ++ t))) =
      operatorNext y (.pending op x :: fs) (scan t) := by
  rw [scan_written op (head?_literal_ne_star hl t), operatorNext_operator hs,
    push_pending fun _ => hn]
  exact operandNext_literal hl ht _

lemma operatorNext_chunk_nil (op : Operator) (hl : IsLiteral y l) (fs : List Frame)
    (hs : Settled op.settles fs) (hn : nesting fs < nestingLimit) (x : Float) :
    operatorNext x fs (scan (op.written ++ l)) = operatorNext y (.pending op x :: fs) [] := by
  have hchunk := operatorNext_chunk op hl startsApart_nil fs hs hn x
  rwa [List.append_nil, scan_nil] at hchunk

end

/-! ### The value of what has been typed behind a number -/

/-- An operator and a literal at the end of an expression are applied to what stands in front of
them. -/
lemma operatorNext_last (op : Operator) {y : Float} {l : Text} (hl : IsLiteral y l) (x : Float) :
    operatorNext x [] (scan (op.written ++ l)) = op.apply x y := by
  rw [operatorNext_chunk_nil op hl [] trivial (by decide), operatorNext_pending (Nat.zero_le _)]
  exact bind_pure (op.apply x y)

/-- The value of three numbers with two operators between them: the second operator goes first if
it does not complete the first one. -/
def joined (op₁ op₂ : Operator) (x y z : Float) : Except EvaluationError Float :=
  if op₂.settles ≤ op₁.strength then op₁.apply x y >>= fun w => op₂.apply w z
  else op₂.apply y z >>= fun w => op₁.apply x w

/-- Two operators with a literal each, at the end of an expression. -/
lemma operatorNext_joined (op₁ op₂ : Operator) {y z : Float} {l m : Text} (hl : IsLiteral y l)
    (hm : IsLiteral z m) (x : Float) :
    operatorNext x [] (scan (op₁.written ++ (l ++ (op₂.written ++ m)))) =
      joined op₁ op₂ x y z := by
  have hfirst : operatorNext x [] (scan (op₁.written ++ (l ++ (op₂.written ++ m)))) =
      operatorNext y [.pending op₁ x] (scan (op₂.written ++ m)) :=
    operatorNext_chunk op₁ hl (startsApart_written op₂ m) [] trivial (by decide) x
  rw [hfirst, joined]
  -- the frame of the first operator is completed before the second one is read, or waits below it
  by_cases hop : op₂.settles ≤ op₁.strength
  · have hdemand : demand (scan (op₂.written ++ m)) ≤ op₁.strength := by
      have hscan := scan_written op₂ (head?_literal_ne_star hm [])
      rw [List.append_nil] at hscan
      rw [hscan]
      exact hop
    rw [if_pos hop, operatorNext_pending hdemand]
    simp only [operatorNext_last op₂ hm]
  · have hnesting : nesting [.pending op₁ x] < nestingLimit :=
      Nat.lt_of_le_of_lt List.countP_le_length (show 1 < 256 by decide)
    have hsettled : Settled op₂.settles [.pending op₁ x] := Nat.lt_of_not_le hop
    rw [if_neg hop, operatorNext_chunk_nil op₂ hm _ hsettled hnesting,
      operatorNext_pending (Nat.zero_le _)]
    congr 1
    funext w
    rw [operatorNext_pending (Nat.zero_le _)]
    exact bind_pure (op₁.apply x w)

/-! ### The text behind a number -/

/-- A character that canonical form keeps and that begins neither a root nor a square. -/
def IsKept (c : Char) : Prop := canonicalChar c = [c] ∧ c ≠ rootSign ∧ c ≠ squareSign

lemma isKept_of_isPart {c : Char} (hc : Numeral.isPart c = true) : IsKept c := by
  have hne : ∀ d, Numeral.isPart d = false → c ≠ d := by
    rintro d hd rfl
    exact absurd hc (by simp [hd])
  refine ⟨canonicalChar_of_ne ?_ ?_ ?_, ?_, ?_⟩ <;> exact hne _ (by decide)

lemma IsSigned.isKept {x : Float} {t : Text} (h : IsSigned x t) : ∀ c ∈ t, IsKept c := by
  intro c hc
  rcases h.mem hc with rfl | hpart
  · exact ⟨rfl, by decide, by decide⟩
  · exact isKept_of_isPart hpart

/-- The characters of a shown number. -/
lemma IsShown.isKept {t : Text} (h : IsShown t) : ∀ c ∈ t, IsKept c := by
  cases h with
  | plain ht => exact ht.isKept
  | scientific sign hsign hm hd =>
    intro c hc
    rcases List.mem_append.1 hc with hc | hc
    · exact hm.isKept c hc
    rcases List.mem_cons.1 hc with rfl | hc
    · exact ⟨rfl, by decide, by decide⟩
    rcases List.mem_cons.1 hc with rfl | hc
    · rcases hsign with rfl | rfl <;> exact ⟨rfl, by decide, by decide⟩
    · exact isKept_of_isPart (hd.isPart c hc)

lemma isKept_or_eq_glyph {s n : Text} (hs : ∀ c ∈ s, IsKept c) (hn : ∀ c ∈ n, IsKept c)
    (op : Operator) {c : Char} (hc : c ∈ s ++ op.glyph :: n) : IsKept c ∨ c = op.glyph := by
  simp only [List.mem_append, List.mem_cons] at hc
  rcases hc with hc | rfl | hc
  · exact Or.inl (hs c hc)
  · exact Or.inr rfl
  · exact Or.inl (hn c hc)

/-- The value of a text in which a glyph is the only character that is not kept. -/
lemma evaluate_append_glyph {s n : Text} (hs : ∀ c ∈ s, IsKept c) (hn : ∀ c ∈ n, IsKept c)
    (op : Operator) : evaluate (s ++ op.glyph :: n) =
      (value (scan (s ++ (op.written ++ n)))).mapError .invalid := by
  have hroot : rootSign ∉ s ++ op.glyph :: n := by
    intro hmem
    rcases isKept_or_eq_glyph hs hn op hmem with hkept | hop
    · exact hkept.2.1 rfl
    · exact absurd hop (by cases op <;> decide)
  have hsquare : squareSign ∉ s ++ op.glyph :: n := by
    intro hmem
    rcases isKept_or_eq_glyph hs hn op hmem with hkept | hop
    · exact hkept.2.2 rfl
    · exact absurd hop (by cases op <;> decide)
  have hglyph : canonicalChar op.glyph = op.written := by
    cases op <;> rfl
  rw [evaluate_of_not_mem hroot hsquare, canonical_append, canonical_cons, hglyph,
    canonical_eq_self fun c hc => (hs c hc).1, canonical_eq_self fun c hc => (hn c hc).1]

section

variable {x y z : Float} {t n mantissa digits : Text}

/-- A number that is written out in full is the left operand of the operator behind it. -/
lemma evaluate_signed (ht : IsSigned x t) (op : Operator) (hn : IsLiteral z n) :
    evaluate (t ++ op.glyph :: n) = (op.apply x z).mapError .invalid := by
  have hvalue : value (scan (t ++ (op.written ++ n))) = op.apply x z := by
    rw [value_signed ht (startsApart_written op n), operatorNext_last op hn]
  rw [evaluate_append_glyph ht.isKept (fun c hc => isKept_of_isPart (hn.isPart c hc)), hvalue]

/-- In scientific form, mantissa and exponent are operands of their own. -/
lemma evaluate_scientific {sign : Operator} (hsign : sign = .add ∨ sign = .subtract)
    (hm : IsSigned x mantissa) (hd : IsLiteral y digits) (op : Operator) (hn : IsLiteral z n) :
    evaluate ((mantissa ++ 'e' :: sign.glyph :: digits) ++ op.glyph :: n) =
      (joined sign op x y z).mapError .invalid := by
  have hwritten : [sign.glyph] = sign.written := by
    rcases hsign with rfl | rfl <;> rfl
  have htext : (mantissa ++ 'e' :: sign.glyph :: digits) ++ (op.written ++ n) =
      mantissa ++ 'e' :: (sign.written ++ (digits ++ (op.written ++ n))) := by
    rw [← hwritten]
    simp
  have hmark : StartsApart ('e' :: (sign.written ++ (digits ++ (op.written ++ n)))) := by
    simp [StartsApart, Numeral.isPart]
  have hvalue : value (scan ((mantissa ++ 'e' :: sign.glyph :: digits) ++ (op.written ++ n))) =
      joined sign op x y z := by
    rw [htext, value_signed hm hmark, scan_exponentMark, operatorNext_joined sign op hd hn]
  rw [evaluate_append_glyph (IsShown.scientific sign hsign hm hd).isKept
    (fun c hc => isKept_of_isPart (hn.isPart c hc)), hvalue]

end

end Expression

end DeskCalculator
