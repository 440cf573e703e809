import DeskCalculator.Proofs.Expression.Failure
import DeskCalculator.Proofs.Expression.OpenGroup
import DeskCalculator.Proofs.Session.Glyphs

/-!
# The parentheses of an expression on the keypad

The one key for parentheses opens a group only when none is open, and so groups never nest and no
group is closed that has not been opened.  This holds of every beginning of an expression
(`Text.Grouped`), which is why it survives the backspace key.  A result holds no parenthesis, and
it comes into an expression at its start only, so that behind a parenthesis stands nothing but what
keys have typed.

The tokens of such an expression open their groups one at a time, and no two numbers are
neighbours inside of a group.  If all groups are closed in the end, the evaluation therefore does
not fail because one is open.
-/

namespace DeskCalculator

open Token (NotBothNumbers)

namespace Text

/-- A character that a key types. -/
def Typed (c : Char) : Prop :=
  Numeral.isPart c = true ∨ Operator.isGlyph c = true ∨ c = '(' ∨ c = ')'

/-- Keys type no letters. -/
lemma Typed.isAlpha_eq {c : Char} (h : Typed c) : c.isAlpha = false := by
  rcases h with hpart | hglyph | rfl | rfl
  · exact Numeral.isAlpha_of_isPart hpart
  · obtain ⟨op, -, hop⟩ := List.any_eq_true.1 hglyph
    obtain rfl : op.glyph = c := by simpa using hop
    cases op <;> decide
  · decide
  · decide

lemma typed_glyph (op : Operator) : Typed op.glyph :=
  Or.inr (Or.inl (Operator.isGlyph_glyph op))

/-- No beginning of the text closes more groups than it opens, or leaves more than one open, and
behind an opening parenthesis stands only what keys have typed. -/
structure Grouped (t : Text) : Prop where
  flat : ∀ u, u <+: t → u.count ')' ≤ u.count '(' ∧ u.count '(' ≤ u.count ')' + 1
  typed : ∀ u v, t = u ++ '(' :: v → ∀ c ∈ v, Typed c

/-- There are no parentheses in the text. -/
def Ungrouped (t : Text) : Prop := '(' ∉ t ∧ ')' ∉ t

lemma Ungrouped.grouped {t : Text} (h : Ungrouped t) : Grouped t := by
  constructor
  · intro u hu
    rw [List.count_eq_zero_of_not_mem fun hm => h.1 (hu.subset hm),
      List.count_eq_zero_of_not_mem fun hm => h.2 (hu.subset hm)]
    exact ⟨le_refl 0, Nat.zero_le 1⟩
  · rintro u v rfl
    exact absurd (by simp) h.1

namespace Grouped

lemma of_prefix {s t : Text} (h : Grouped t) (hs : s <+: t) : Grouped s := by
  refine ⟨fun u hu => h.flat u (hu.trans hs), ?_⟩
  rintro u v rfl c hc
  obtain ⟨r, rfl⟩ := hs
  exact h.typed u (v ++ r) (by simp) c (List.mem_append_left r hc)

/-- A typed character may follow if the counts of the parentheses allow it. -/
lemma concat {t : Text} (h : Grouped t) {c : Char} (hc : Typed c)
    (hflat : (t ++ [c]).count ')' ≤ (t ++ [c]).count '(' ∧
      (t ++ [c]).count '(' ≤ (t ++ [c]).count ')' + 1) : Grouped (t ++ [c]) := by
  constructor
  · intro u hu
    rcases List.prefix_concat_iff.1 hu with rfl | hu
    · exact hflat
    · exact h.flat u hu
  · intro u v heq d hd
    obtain rfl | ⟨v, e, rfl⟩ := List.eq_nil_or_concat' v
    · exact absurd hd List.not_mem_nil
    rw [← List.cons_append, ← List.append_assoc] at heq
    obtain ⟨ht, he⟩ := List.append_inj' heq rfl
    rcases List.mem_append.1 hd with hd | hd
    · exact h.typed u v ht d hd
    · rw [← he, List.mem_singleton] at hd
      rwa [hd]

lemma concat_of_ne {t : Text} (h : Grouped t) {c : Char} (hc : Typed c) (h₁ : c ≠ '(')
    (h₂ : c ≠ ')') : Grouped (t ++ [c]) := by
  refine h.concat hc ?_
  rw [List.count_append, List.count_append, List.count_singleton, List.count_singleton,
    beq_false_of_ne h₁, beq_false_of_ne h₂]
  exact h.flat t (List.prefix_refl t)

lemma concat_glyph {t : Text} (h : Grouped t) (op : Operator) : Grouped (t ++ [op.glyph]) :=
  h.concat_of_ne (typed_glyph op) (by cases op <;> decide) (by cases op <;> decide)

/-- The key for parentheses closes the group that is open, or opens one. -/
lemma concat_parenthesis {t : Text} (h : Grouped t) :
    Grouped (t ++ [if t.count ')' < t.count '(' then ')' else '(']) := by
  have ht := h.flat t (List.prefix_refl t)
  split
  · refine h.concat (Or.inr (Or.inr (Or.inr rfl))) ?_
    rw [List.count_append, List.count_append, List.count_singleton_self,
      show [')'].count '(' = 0 from rfl]
    omega
  · refine h.concat (Or.inr (Or.inr (Or.inl rfl))) ?_
    rw [List.count_append, List.count_append, List.count_singleton_self,
      show ['('].count ')' = 0 from rfl]
    omega

end Grouped

end Text

open Text

/-! ### The keypad -/

lemma ungrouped_display (x : Float) : Ungrouped (Display.text x) := by
  have hne : ∀ c, ¬ Display.IsWritten c → c ∉ Display.text x :=
    fun c hc hm => hc (Display.isWritten_of_mem_text hm)
  constructor
  · exact hne '(' (by simp [Display.IsWritten]; decide)
  · exact hne ')' (by simp [Display.IsWritten]; decide)

/-- The keypad keeps the groups of expressions apart, and results have none. -/
lemma keeps_grouped : Keeps Grouped Ungrouped where
  nil := Ungrouped.grouped ⟨List.not_mem_nil, List.not_mem_nil⟩
  shown := ungrouped_display
  error := by simp [Ungrouped, Display.error]
  result _ h := h.grouped
  dropLast t h := h.of_prefix (List.dropLast_prefix t)
  part _ c h hc := by
    exact h.concat_of_ne (Or.inl hc) (Numeral.ne_of_isPart hc (by decide))
      (Numeral.ne_of_isPart hc (by decide))
  parenthesis _ h := h.concat_parenthesis
  continued _ op h := h.grouped.concat_glyph op
  appended _ op h _ := h.concat_glyph op
  replaced t op h _ := (h.of_prefix (List.dropLast_prefix t)).concat_glyph op

/-! ### The tokens -/

namespace Token

lemma ofGlyph?_eq_opening (c : Char) : ofGlyph? c = some opening ↔ c = '(' := by
  unfold ofGlyph?
  split <;> simp_all

lemma ofGlyph?_eq_closing (c : Char) : ofGlyph? c = some closing ↔ c = ')' := by
  unfold ofGlyph?
  split <;> simp_all

section

variable {k : Token} {c : Char}

lemma count_filterMap (hk : ∀ d, ofGlyph? d = some k ↔ d = c) (t : Text) :
    (t.filterMap ofGlyph?).count k = t.count c := by
  rw [List.count_filterMap, List.count]
  exact List.countP_congr fun d _ => by simp [hk]

/-- A token that only one character makes occurs as often as the character. -/
lemma count_scan (hk : ∀ d, ofGlyph? d = some k ↔ d = c) (hnumber : k.isNumber = false) {t : Text}
    (ht : t.Glyphic) : (scan (Expression.canonical t)).count k = t.count c := by
  rw [← count_filterMap hk, ← ht.filter_scan_canonical,
    List.count_filter (a := k) (p := fun l => !l.isNumber) (by rw [hnumber, Bool.not_false])]

end

/-- A beginning of the tokens opens and closes the groups of a beginning of the text. -/
lemma exists_prefix {t : Text} (ht : t.Glyphic) {u v : List Token}
    (h : scan (Expression.canonical t) = u ++ v) :
    ∃ s, s <+: t ∧ u.count opening = s.count '(' ∧ u.count closing = s.count ')' := by
  have hfilter := ht.filter_scan_canonical
  rw [h, List.filter_append] at hfilter
  obtain ⟨s, r, rfl, hs, -⟩ := List.filterMap_eq_append_iff.1 hfilter.symm
  refine ⟨s, List.prefix_append s r, ?_, ?_⟩
  · rw [← count_filterMap ofGlyph?_eq_opening, hs, List.count_filter rfl]
  · rw [← count_filterMap ofGlyph?_eq_closing, hs, List.count_filter rfl]

lemma count_opening {t : Text} (ht : t.Glyphic) :
    (scan (Expression.canonical t)).count opening = t.count '(' :=
  count_scan ofGlyph?_eq_opening rfl ht

/-- What stands behind the first occurrence of a token. -/
lemma eq_of_append_cons {k : Token} {u v u' v' : List Token} (h : u ++ k :: v = u' ++ k :: v')
    (hu : k ∉ u) (hu' : k ∉ u') : v = v' := by
  rcases List.append_eq_append_iff.1 h with ⟨w, rfl, hw⟩ | ⟨w, rfl, hw⟩
  · rcases List.cons_eq_append_iff.1 hw with ⟨-, heq⟩ | ⟨w', rfl, -⟩
    · exact (List.cons.inj heq).2.symm
    · exact absurd (by simp) hu'
  · rcases List.cons_eq_append_iff.1 hw with ⟨-, heq⟩ | ⟨w', rfl, -⟩
    · exact (List.cons.inj heq).2
    · exact absurd (by simp) hu

/-- Of every typed character, canonical form makes parts of a number or tokens. -/
lemma isPart_or_ofChar?_canonical {t : Text} (ht : ∀ c ∈ t, Typed c) :
    ∀ c ∈ Expression.canonical t, Numeral.isPart c = true ∨ (ofChar? c).isSome := by
  intro c hc
  obtain ⟨d, hd, hcd⟩ := List.mem_flatMap.1 hc
  rcases ht d hd with hpart | hglyph | rfl | rfl
  · rw [canonicalChar_of_isPart hpart, List.mem_singleton] at hcd
    exact Or.inl (hcd ▸ hpart)
  · obtain ⟨op, -, hop⟩ := List.any_eq_true.1 hglyph
    obtain rfl : op.glyph = d := by simpa using hop
    right
    cases op <;> simp [Operator.glyph, Expression.canonicalChar] at hcd <;> subst hcd <;> rfl
  · exact Or.inr (by rw [List.mem_singleton.1 hcd]; rfl)
  · exact Or.inr (by rw [List.mem_singleton.1 hcd]; rfl)

end Token

open Expression Token

/-- The tokens of an expression with its groups closed. -/
lemma Text.Grouped.oneGroup {t : Text} (h : t.Grouped) (ht : t.Glyphic)
    (hcount : t.count '(' = t.count ')') : OneGroup (scan (canonical t)) where
  flat u v heq := by
    obtain ⟨s, hs, hopening, hclosing⟩ := exists_prefix ht heq
    rw [hopening, hclosing]
    exact (h.flat s hs).2
  closed := by rw [count_opening ht, count_scan ofGlyph?_eq_closing rfl ht, hcount]
  apart u v heq hu := by
    have hmem : '(' ∈ t := by
      rw [← List.count_pos_iff, ← count_opening ht, heq]
      exact List.count_pos_iff.2 (by simp)
    -- the first opening parenthesis of the text makes the first one of the tokens
    obtain ⟨a, b, rfl, ha⟩ := List.eq_append_cons_of_mem hmem
    have hcut : scan (canonical (a ++ '(' :: b)) =
        scan (canonical a) ++ opening :: scan (canonical b) := by
      rw [canonical_append, canonical_cons]
      exact (scanAfter_cut rfl (by decide) [] _ _).trans (by simp [scan, ofChar?])
    have hfirst : opening ∉ scan (canonical a) := by
      have hglyphic : Text.Glyphic a :=
        ⟨ht.isChain.left_of_append, fun c hc => ht.typed c (List.mem_append_left _ hc)⟩
      rw [← List.count_eq_zero, count_opening hglyphic, List.count_eq_zero]
      exact ha
    rw [hcut] at heq
    rw [← eq_of_append_cons heq hfirst hu]
    exact isChain_scanAfter (isPart_or_ofChar?_canonical (h.typed a b rfl)) []

/-- An expression with its groups closed does not fail because one is open. -/
lemma Text.Grouped.rootCause_ne {t : Text} (h : t.Grouped) (ht : t.Glyphic)
    (hcount : t.count '(' = t.count ')') {e : EvaluationError} (he : evaluate t = .error e) :
    e.rootCause ≠ .unclosedGroup := by
  rw [evaluate_of_not_mem ht.not_mem_root ht.not_mem_square] at he
  cases hv : value (scan (canonical t)) with
  | ok x =>
    rw [hv] at he
    cases he
  | error cause =>
    obtain rfl : cause.invalid = e := by simpa [hv, Except.mapError] using he
    rw [EvaluationError.rootCause_invalid, EvaluationError.rootCause_of_not (value_not_invalid hv)]
    rintro rfl
    exact (h.oneGroup ht hcount).value_ne_unclosed hv

namespace Session

/-- **Parentheses are well placed.**  After every run, each beginning of the expression has as many
opening parentheses as closing ones or one more, and no letter, which only a result can bring,
stands behind the first opening one.  If the whole expression has as many of both, its evaluation
does not fail because a group is not closed. -/
theorem parentheses_run (as : List Action) :
    let t := (run as).state.expression
    (∀ u, u <+: t → u.count '(' = u.count ')' ∨ u.count '(' = u.count ')' + 1) ∧
    (∀ u v, t = u ++ '(' :: v → ∀ c ∈ v, c.isAlpha = false) ∧
    (t.count '(' = t.count ')' →
      ∀ e, evaluate t = .error e → e.rootCause ≠ .unclosedGroup) := by
  intro t
  have h : t.Grouped := (keeps_grouped.holds_run as).expression
  refine ⟨fun u hu => ?_, fun u v huv c hc => ?_, fun hcount e he => ?_⟩
  · have := h.flat u hu
    omega
  · exact (h.typed u v huv c hc).isAlpha_eq
  · exact h.rootCause_ne (glyphic_run as).expression hcount he

/-- The keys `( 1 ÷ 0 )`: the evaluation fails, but because of the division. -/
theorem parentheses_of_quotient :
    let t := (run [.parenthesis, .digit 1, .operator .divide, .digit 0,
      .parenthesis]).state.expression
    t = "(1÷0)".toList ∧ t.count '(' = t.count ')' ∧
      evaluate t = .error (.invalidExpression .divisionByZero) ∧
      (EvaluationError.invalidExpression .divisionByZero).rootCause ≠ .unclosedGroup := by
  have ht : (run [.parenthesis, .digit 1, .operator .divide, .digit 0,
      .parenthesis]).state.expression = "(1÷0)".toList := by decide
  have hvalue : evaluate "(1÷0)".toList = .error (.invalidExpression .divisionByZero) := by
    rw [evaluate_of_not_mem (by decide) (by decide)]
    rfl
  obtain ⟨-, -, hclosed⟩ := parentheses_run [.parenthesis, .digit 1, .operator .divide, .digit 0,
    .parenthesis]
  rw [ht] at hclosed ⊢
  exact ⟨rfl, by decide, hvalue, hclosed (by decide) _ hvalue⟩

end Session

end DeskCalculator
