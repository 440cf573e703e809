import DeskCalculator.Proofs.Expression.Primitive
import DeskCalculator.Proofs.Expression.Scanning
import DeskCalculator.Proofs.Number.DecimalText
import DeskCalculator.Proofs.Session.Keeping

/-!
# The glyphs of an expression on the keypad

An expression of a session is typed key by key, continued from a result, cut back from its
end or recalled from the ledger.  In all of these ways it stays a text in which no two
operator glyphs are neighbours and no arithmetic character but the glyphs occurs
(`Text.Glyphic`, `keeps_glyphic`).  A result moreover does not end with a glyph, so that an
operator may follow it.

The main statement is that such an expression reaches the scanner as it was typed: its
primitive form is its canonical form, and the scanner makes one token of each glyph.
-/

namespace DeskCalculator

open Token (NotBothGlyphs)

namespace Text

/-- Characters with a meaning in arithmetic or for roots and squares that no key of the keypad
types. -/
def untyped : List Char := ['*', '/', '√', '²']

/-- No two operator glyphs are neighbours, and no untyped character occurs. -/
structure Glyphic (t : Text) : Prop where
  isChain : t.IsChain NotBothGlyphs
  typed : ∀ c ∈ t, c ∉ untyped

/-- The text is glyphic and does not end with the glyph of an operator. -/
structure GlyphicOperand (t : Text) : Prop extends Glyphic t where
  last : ∀ c ∈ t.getLast?, Operator.isGlyph c = false

/-- A character that is neither a glyph of an operator nor untyped. -/
def Ordinary (c : Char) : Prop := Operator.isGlyph c = false ∧ c ∉ untyped

instance : DecidablePred Ordinary := fun _ => inferInstanceAs (Decidable (_ ∧ _))

lemma ordinary_of_isPart {c : Char} (h : Numeral.isPart c = true) : Ordinary c := by
  have hne : ∀ d, Numeral.isPart d = false → d ≠ c :=
    fun d hd => (Numeral.ne_of_isPart h hd).symm
  constructor
  · refine List.any_eq_false.2 fun op _ => ?_
    simpa using hne op.glyph (by cases op <;> decide)
  · intro hc
    have hnone : untyped.all (fun d => !Numeral.isPart d) = true := by decide
    exact hne c (by simpa using List.all_eq_true.1 hnone c hc) rfl

/-- The characters of a given text are looked at one by one. -/
lemma ordinary_of_all {t : Text} (h : t.all (fun c => decide (Ordinary c)) = true) :
    ∀ c ∈ t, Ordinary c :=
  fun c hc => of_decide_eq_true (List.all_eq_true.1 h c hc)

namespace Glyphic

lemma nil : Glyphic [] := ⟨List.isChain_nil, by simp⟩

lemma dropLast {t : Text} (h : Glyphic t) : Glyphic t.dropLast :=
  ⟨h.isChain.dropLast, fun c hc => h.typed c ((List.dropLast_sublist t).subset hc)⟩

/-- A character may follow unless it and the one before are both glyphs. -/
lemma concat {t : Text} (h : Glyphic t) {c : Char} (hc : c ∉ untyped)
    (hl : ∀ d ∈ t.getLast?, NotBothGlyphs d c) : Glyphic (t ++ [c]) := by
  constructor
  · refine List.isChain_append.2 ⟨h.isChain, List.isChain_singleton c, ?_⟩
    rintro d hd e he
    obtain rfl : c = e := by simpa using he
    exact hl d hd
  · intro d hd
    rcases List.mem_append.1 hd with hd | hd
    · exact h.typed d hd
    · rwa [List.mem_singleton.1 hd]

lemma concat_ordinary {t : Text} (h : Glyphic t) {c : Char} (hc : Ordinary c) :
    Glyphic (t ++ [c]) :=
  h.concat hc.2 fun d _ hboth => absurd hboth.2 (by simp [hc.1])

/-- Ordinary characters may go on with a text. -/
lemma append_ordinary {s t : Text} (h : Glyphic s) (ht : ∀ c ∈ t, Ordinary c) :
    Glyphic (s ++ t) := by
  induction t using List.reverseRecOn with
  | nil => rwa [List.append_nil]
  | append_singleton t c ih =>
    rw [← List.append_assoc]
    exact (ih fun d hd => ht d (List.mem_append_left _ hd)).concat_ordinary
      (ht c (List.mem_append_right t (List.mem_singleton_self c)))

end Glyphic

/-- A glyphic text that ordinary characters go on with, at least one, is an operand. -/
lemma GlyphicOperand.of_append {s t : Text} (h : Glyphic s) (ht : ∀ c ∈ t, Ordinary c)
    (hne : t ≠ []) : GlyphicOperand (s ++ t) := by
  refine ⟨h.append_ordinary ht, fun c hc => ?_⟩
  rw [List.getLast?_append_of_ne_nil s hne] at hc
  exact (ht c (List.mem_of_mem_getLast? hc)).1

lemma GlyphicOperand.of_ordinary {t : Text} (ht : ∀ c ∈ t, Ordinary c) : GlyphicOperand t := by
  by_cases hne : t = []
  · rw [hne]
    exact ⟨Glyphic.nil, by simp⟩
  · exact GlyphicOperand.of_append Glyphic.nil ht hne

end Text

open Text

/-! ### Results -/

lemma glyphicOperand_error : GlyphicOperand Display.error :=
  GlyphicOperand.of_ordinary (ordinary_of_all (by decide))

/-- A number without its sign may follow a sign. -/
lemma glyphicOperand_append_fraction {s : Text} (hs : Glyphic s) (num den : Nat) :
    GlyphicOperand (s ++ Display.fraction num den) := by
  rcases Display.fraction_eq num den with ⟨digits, places, hdig, hne, heq⟩ | ⟨d, hd⟩
  · rw [heq]
    exact GlyphicOperand.of_append hs
      (fun c hc => ordinary_of_isPart (Decimal.isPart_of_mem_withPoint hdig hc))
      (Decimal.withPoint_ne_nil hne places)
  · obtain ⟨digits, exponent, places, sign, hdig, -, hexp, hne, hsign, heq⟩ := d.scientific_eq
    have hmantissa : Glyphic (s ++ Decimal.withPoint digits places ++ ['e']) := by
      refine (hs.append_ordinary fun c hc => ?_).concat_ordinary (by decide)
      exact ordinary_of_isPart (Decimal.isPart_of_mem_withPoint hdig hc)
    have hmarked : Glyphic (s ++ Decimal.withPoint digits places ++ ['e'] ++ [sign]) := by
      refine hmantissa.concat (by rcases hsign with rfl | rfl <;> decide) ?_
      rintro c hc hboth
      obtain rfl : 'e' = c := by simpa using hc
      exact absurd hboth.1 (by decide)
    have hall := GlyphicOperand.of_append hmarked
      (fun c hc => ordinary_of_isPart (Numeral.isPart_of_isDigit (hexp c hc))) hne
    rw [hd, heq, show s ++ (Decimal.withPoint digits places ++ 'e' :: sign :: exponent) =
      s ++ Decimal.withPoint digits places ++ ['e'] ++ [sign] ++ exponent by simp]
    exact hall

/-- Every result that the display shows is an operand. -/
lemma glyphicOperand_display (x : Float) : GlyphicOperand (Display.text x) := by
  have hsign : ∀ negative : Bool, Glyphic (if negative then ['-'] else []) := by
    intro negative
    cases negative
    · exact Glyphic.nil
    · exact Glyphic.nil.concat (c := '-') (by decide) (by simp)
  unfold Display.text
  split
  · exact glyphicOperand_error
  · exact GlyphicOperand.of_append (hsign _) (ordinary_of_all (by decide)) (by decide)
  · split
    · exact GlyphicOperand.of_ordinary (ordinary_of_all (by decide))
    · exact glyphicOperand_append_fraction (hsign _) _ _

/-! ### What the scanner is given -/

namespace Text.Glyphic

variable {t : Text}

lemma ne_of_mem (h : t.Glyphic) {c : Char} (hc : c ∈ t) :
    c ≠ '*' ∧ c ≠ '/' ∧ c ≠ '√' ∧ c ≠ '²' := by
  simpa [untyped] using h.typed c hc

lemma not_mem_root (h : t.Glyphic) : Expression.rootSign ∉ t :=
  fun hm => (h.ne_of_mem hm).2.2.1 rfl

lemma not_mem_square (h : t.Glyphic) : Expression.squareSign ∉ t :=
  fun hm => (h.ne_of_mem hm).2.2.2 rfl

lemma filter_scan_canonical (h : t.Glyphic) :
    (Token.scan (Expression.canonical t)).filter (fun k => !k.isNumber) =
      t.filterMap Token.ofGlyph? :=
  Token.filter_scanAfter_canonical h.isChain
    (fun _ hc => ⟨(h.ne_of_mem hc).1, (h.ne_of_mem hc).2.1⟩) []

end Text.Glyphic

/-! ### The keypad -/

/-- The character before a glyph at the end is no glyph. -/
lemma isGlyph_getLast?_dropLast {t : Text} (ht : t.Glyphic)
    (hg : t.getLast?.any Operator.isGlyph = true) :
    ∀ c ∈ t.dropLast.getLast?, Operator.isGlyph c = false := by
  intro c hc
  obtain ⟨g, hlast, hglyph⟩ := (Option.any_eq_true _ _).1 hg
  obtain ⟨u, rfl⟩ := List.getLast?_eq_some_iff.1 hlast
  rw [List.dropLast_concat] at hc
  have hboth := (List.isChain_append.1 ht.isChain).2.2 c hc g rfl
  exact Bool.eq_false_iff.2 fun hc' => hboth ⟨hc', hglyph⟩

/-- An operator may follow where no glyph stands last. -/
lemma Text.Glyphic.concat_glyph {t : Text} (h : t.Glyphic) (op : Operator)
    (hl : ∀ c ∈ t.getLast?, Operator.isGlyph c = false) : (t ++ [op.glyph]).Glyphic :=
  h.concat (by cases op <;> decide) fun c hc hboth => absurd hboth.1 (by simp [hl c hc])

/-- The keypad keeps expressions glyphic, and results are operands. -/
lemma keeps_glyphic : Keeps Text.Glyphic Text.GlyphicOperand where
  nil := Text.Glyphic.nil
  shown := glyphicOperand_display
  error := glyphicOperand_error
  result _ h := h.toGlyphic
  dropLast _ h := h.dropLast
  part _ _ h hc := h.concat_ordinary (ordinary_of_isPart hc)
  parenthesis _ h := h.concat_ordinary (by split <;> decide)
  continued _ op h := h.toGlyphic.concat_glyph op h.last
  appended _ op h hg := h.concat_glyph op fun c hc => by simpa [show _ = some c from hc] using hg
  replaced _ op h hg := h.dropLast.concat_glyph op (isGlyph_getLast?_dropLast h hg)

namespace Session

/-- The expression of a session, the result that it shows and the entries of its ledger are
glyphic. -/
structure Glyphic (s : Session) : Prop where
  expression : s.state.expression.Glyphic
  display : s.state.justComputed = true → s.state.display.GlyphicOperand
  ledger : ∀ e ∈ s.ledger.toList, e.expression.Glyphic ∧ e.result.GlyphicOperand

lemma glyphic_run (as : List Action) : (run as).Glyphic :=
  have h := keeps_glyphic.holds_run as
  ⟨h.expression, h.display, h.ledger⟩

/-- **Expressions reach the scanner as they are typed.**  After every run, no two neighbouring
characters of the expression are glyphs of operators, and it holds no star, no stroke, no `√`
and no `²`.  So its primitive form is its canonical form, and the tokens of that, numbers
apart, are one for each glyph and each parenthesis of the expression, in their order. -/
theorem scan_canonical_run (as : List Action) :
    let t := (run as).state.expression
    t.IsChain (fun c d => ¬(Operator.isGlyph c = true ∧ Operator.isGlyph d = true)) ∧
    (∀ c ∈ t, c ≠ '*' ∧ c ≠ '/' ∧ c ≠ '√' ∧ c ≠ '²') ∧
    Expression.primitive t = .ok (Expression.canonical t) ∧
    (Token.scan (Expression.canonical t)).filter (fun k => !k.isNumber) =
      t.filterMap Token.ofGlyph? := by
  intro t
  have ht : t.Glyphic := (glyphic_run as).expression
  exact ⟨ht.isChain, fun _ => ht.ne_of_mem,
    Expression.primitive_eq_canonical ht.not_mem_root ht.not_mem_square, ht.filter_scan_canonical⟩

end Session

end DeskCalculator
