import DeskCalculator.Expression.Evaluation
import Mathlib.Tactic.Lemma

/-!
# Texts without roots and squares

A text without `√` and `²` has its canonical form as primitive form (`primitive_eq_canonical`),
so that its value is that of the tokens of the canonical form.  The canonical form of a
canonical form is that form itself, and so a text and its canonical form have the same value
(`evaluate_canonical`).
-/

namespace DeskCalculator

namespace Expression

/-! ### Canonical form -/

lemma mem_canonical {c : Char} (hc : canonicalChar c = [c]) (h₁ : c ≠ '*') (h₂ : c ≠ '/')
    {t : Text} : c ∈ canonical t ↔ c ∈ t := by
  rw [← List.count_pos_iff, ← List.count_pos_iff, count_canonical hc h₁ h₂]

lemma count_canonical_rootSign (t : Text) : (canonical t).count rootSign = t.count rootSign :=
  count_canonical rfl (by decide) (by decide) t

lemma canonical_eq_self {t : Text} (ht : ∀ c ∈ t, canonicalChar c = [c]) : canonical t = t := by
  induction t with
  | nil => rfl
  | cons c t ih =>
    rw [canonical_cons, ht c List.mem_cons_self, ih fun d hd => ht d (List.mem_cons_of_mem c hd)]
    rfl

/-- What canonical form makes of a character is not changed by it again. -/
lemma canonicalChar_of_mem {c d : Char} (h : d ∈ canonicalChar c) : canonicalChar d = [d] := by
  unfold canonicalChar at h
  split at h
  · obtain rfl := List.mem_singleton.1 h
    rfl
  · obtain rfl := List.mem_singleton.1 h
    rfl
  · obtain rfl : d = '*' := by simpa using h
    rfl
  · rename_i h₁ h₂ h₃
    obtain rfl := List.mem_singleton.1 h
    unfold canonicalChar
    split <;> first | rfl | contradiction

lemma canonicalChar_of_mem_canonical {t : Text} {d : Char} (h : d ∈ canonical t) :
    canonicalChar d = [d] := by
  obtain ⟨c, -, hd⟩ := List.mem_flatMap.1 h
  exact canonicalChar_of_mem hd

lemma canonical_canonical (t : Text) : canonical (canonical t) = canonical t :=
  canonical_eq_self fun _ hd => canonicalChar_of_mem_canonical hd

lemma primitive_canonical (t : Text) : primitive (canonical t) = primitive t := by
  rw [primitive_eq, primitive_eq, canonical_canonical]

lemma evaluate_canonical (t : Text) : evaluate (canonical t) = evaluate t := by
  rw [evaluate, evaluate, primitive_canonical]

/-! ### Roots -/

lemma pieces_cons_of_ne {c : Char} (hc : c ≠ rootSign) (t : Text) :
    pieces (c :: t) = .plain c :: pieces t := by
  rw [pieces, if_neg hc]

lemma pieces_root_of_some {t inner rest : Text} (h : group? t = some (inner, rest)) :
    pieces (rootSign :: t) = .root inner :: pieces rest := by
  rw [pieces, if_pos rfl]
  split
  · rename_i heq
    obtain ⟨rfl, rfl⟩ := Prod.mk.inj (Option.some.inj (heq.symm.trans h))
    rfl
  · rename_i heq
    exact absurd (heq.symm.trans h) (by simp)

lemma pieces_root_of_none {t : Text} (h : group? t = none) :
    pieces (rootSign :: t) = .plain rootSign :: pieces t := by
  rw [pieces, if_pos rfl]
  split
  · rename_i heq
    exact absurd (heq.symm.trans h) (by simp)
  · rfl

/-- The text with its root groups replaced by the square roots of what stands inside of
them, before squares are computed. -/
def expandRoots (t : Text) : Except EvaluationError Text :=
  (pieces t).mapM Piece.expand >>= fun parts => .ok parts.flatten

lemma primitive_eq_expandRoots (t : Text) :
    primitive t = expandRoots (canonical t) >>= squares := by
  rw [primitive_eq, expandRoots, bind_assoc]
  rfl

lemma expandRoots_nil : expandRoots [] = .ok [] := by
  rw [expandRoots, pieces]
  rfl

/-- The pieces behind the first one are expanded after it. -/
lemma expandRoots_of_pieces {t rest : Text} {p : Piece} (h : pieces t = p :: pieces rest) :
    expandRoots t = p.expand >>= fun part => expandRoots rest >>= fun out =>
      .ok (part ++ out) := by
  rw [expandRoots, h, List.mapM_cons]
  simp only [expandRoots, bind_assoc, pure_bind]
  rfl

lemma expandRoots_cons_of_ne {c : Char} (hc : c ≠ rootSign) (t : Text) :
    expandRoots (c :: t) = expandRoots t >>= fun out => .ok (c :: out) :=
  expandRoots_of_pieces (pieces_cons_of_ne hc t)

lemma expandRoots_root_of_some {t inner rest : Text} (h : group? t = some (inner, rest)) :
    expandRoots (rootSign :: t) = evaluate inner >>= fun x => expandRoots rest >>= fun out =>
      .ok (Shortest.text x.sqrt ++ out) := by
  rw [expandRoots_of_pieces (pieces_root_of_some h), Piece.expand]
  cases evaluate inner <;> rfl

lemma expandRoots_root_of_none {t : Text} (h : group? t = none) :
    expandRoots (rootSign :: t) = expandRoots t >>= fun out => .ok (rootSign :: out) :=
  expandRoots_of_pieces (pieces_root_of_none h)

/-- A part of a text without root signs is kept. -/
lemma expandRoots_append_of_not_mem {s : Text} (hs : rootSign ∉ s) (t : Text) :
    expandRoots (s ++ t) = expandRoots t >>= fun out => .ok (s ++ out) := by
  induction s with
  | nil => exact (bind_pure (expandRoots t)).symm
  | cons c s ih =>
    rw [List.mem_cons, not_or] at hs
    rw [List.cons_append, expandRoots_cons_of_ne (Ne.symm hs.1), ih hs.2, bind_assoc]
    rfl

lemma expandRoots_eq_self {t : Text} (ht : rootSign ∉ t) : expandRoots t = .ok t := by
  have h := expandRoots_append_of_not_mem ht []
  rw [List.append_nil, expandRoots_nil] at h
  rw [h]
  exact congrArg Except.ok (List.append_nil t)

/-! ### Squares -/

lemma squaresAfter_cons_of_ne {c : Char} (hc : c ≠ squareSign) (written t : Text) :
    squaresAfter written (c :: t) = squaresAfter (c :: written) t := by
  rw [squaresAfter, if_neg fun h => hc h.1]

/-- A part of a text without square signs is written as it is. -/
lemma squaresAfter_append_of_not_mem {s : Text} (hs : squareSign ∉ s) (written t : Text) :
    squaresAfter written (s ++ t) = squaresAfter (s.reverse ++ written) t := by
  induction s generalizing written with
  | nil => rfl
  | cons c s ih =>
    rw [List.mem_cons, not_or] at hs
    rw [List.cons_append, squaresAfter_cons_of_ne (Ne.symm hs.1), ih hs.2, List.reverse_cons,
      List.append_assoc]
    rfl

lemma squares_eq_self {t : Text} (ht : squareSign ∉ t) : squares t = .ok t := by
  have h := squaresAfter_append_of_not_mem ht [] []
  rw [List.append_nil, List.append_nil, squaresAfter, List.reverse_reverse] at h
  exact h

/-! ### Texts without either -/

lemma mem_canonical_rootSign {t : Text} : rootSign ∈ canonical t ↔ rootSign ∈ t :=
  mem_canonical rfl (by decide) (by decide)

lemma mem_canonical_squareSign {t : Text} : squareSign ∈ canonical t ↔ squareSign ∈ t :=
  mem_canonical rfl (by decide) (by decide)

lemma primitive_eq_canonical {t : Text} (hr : rootSign ∉ t) (hs : squareSign ∉ t) :
    primitive t = .ok (canonical t) := by
  rw [primitive_eq_expandRoots, expandRoots_eq_self (mt mem_canonical_rootSign.1 hr)]
  exact squares_eq_self (mt mem_canonical_squareSign.1 hs)

/-- The value of a text with neither roots nor squares. -/
lemma evaluate_of_not_mem {t : Text} (hr : rootSign ∉ t) (hs : squareSign ∉ t) :
    evaluate t = (value (Token.scan (canonical t))).mapError .invalid := by
  rw [evaluate, primitive_eq_canonical hr hs]
  rfl

end Expression

end DeskCalculator
