import DeskCalculator.Proofs.Expression.Continuation

/-!
# Texts that spell an expression

An expression is written by writing its tokens, with the characters of arithmetic or with the
glyphs of the keypad, and with spaces between them or without.  Where operands and operators
alternate, no two numbers run together and no two stars meet, so that every such text is cut into
the same tokens again (`Spells.scan_canonical`).  The tokens of a derivation tree alternate
(`alternates_expr`), and so the text has the value of the tree (`evaluate_of_spells`).
-/

namespace DeskCalculator

namespace Token

/-- Whether an operand can start with the token. -/
def startsOperand : Token → Bool
  | number _ | opening | operator .add | operator .subtract => true
  | _ => false

/-- Which token can stand behind which: no number behind the end of an operand, and the start of an
operand everywhere else. -/
def Follows (k l : Token) : Prop :=
  if k.endsOperand then l.isNumber = false else l.startsOperand = true

/-- Tokens in which operands and operators alternate, from the start of an operand to the end of
one. -/
structure Alternates (ts : List Token) : Prop where
  chain : ts.IsChain Follows
  ne_nil : ts ≠ []
  starts : ∀ k ∈ ts.head?, k.startsOperand = true
  ends : ∀ k ∈ ts.getLast?, k.endsOperand = true

section

variable {l r : List Token}

lemma Alternates.operator (hl : Alternates l) (op : Operator) (hr : Alternates r) :
    Alternates (l ++ .operator op :: r) := by
  refine ⟨List.isChain_append.2 ⟨hl.chain, List.isChain_cons.2 ⟨hr.starts, hr.chain⟩, ?_⟩,
    List.append_ne_nil_of_left_ne_nil hl.ne_nil _, ?_, ?_⟩
  · intro k hk m hm
    obtain rfl : Token.operator op = m := by simpa using hm
    rw [Follows, if_pos (hl.ends k hk)]
    rfl
  · rw [List.head?_append_of_ne_nil _ hl.ne_nil]
    exact hl.starts
  · rw [List.getLast?_append_of_ne_nil _ (List.cons_ne_nil _ _),
      List.getLast?_cons_of_ne_nil hr.ne_nil]
    exact hr.ends

lemma Alternates.sign {k : Token} (hs : k.startsOperand = true) (he : k.endsOperand = false)
    (hr : Alternates r) : Alternates (k :: r) := by
  refine ⟨List.isChain_cons.2 ⟨fun m hm => ?_, hr.chain⟩, List.cons_ne_nil _ _, ?_, ?_⟩
  · rw [Follows, he, if_neg Bool.false_ne_true]
    exact hr.starts m hm
  · intro m hm
    obtain rfl : k = m := by simpa using hm
    exact hs
  · rw [List.getLast?_cons_of_ne_nil hr.ne_nil]
    exact hr.ends

lemma Alternates.group (hr : Alternates r) : Alternates (.opening :: (r ++ [.closing])) := by
  have hinner : (r ++ [Token.closing]).IsChain Follows := by
    refine List.isChain_append.2 ⟨hr.chain, List.isChain_singleton _, fun k hk m hm => ?_⟩
    obtain rfl : Token.closing = m := by simpa using hm
    rw [Follows, if_pos (hr.ends k hk)]
    rfl
  refine ⟨List.isChain_cons.2 ⟨fun m hm => ?_, hinner⟩, List.cons_ne_nil _ _, ?_, ?_⟩
  · rw [List.head?_append_of_ne_nil _ hr.ne_nil] at hm
    exact hr.starts m hm
  · simp [startsOperand]
  · rw [← List.cons_append, List.getLast?_concat]
    simp [endsOperand]

lemma alternates_number (digits : Text) : Alternates [.number digits] :=
  ⟨List.isChain_singleton _, List.cons_ne_nil _ _, by simp [startsOperand], by simp [endsOperand]⟩

end

end Token

namespace Expression

open Grammar
open Token (Alternates Follows scan scanAfter)

mutual

lemma alternates_expr (e : Expr) : Alternates e.tokens := by
  cases e with
  | term t => exact alternates_term t
  | add e t => exact (alternates_expr e).operator .add (alternates_term t)
  | subtract e t => exact (alternates_expr e).operator .subtract (alternates_term t)

lemma alternates_term (t : Term) : Alternates t.tokens := by
  cases t with
  | power p => exact alternates_power p
  | multiply t p => exact (alternates_term t).operator .multiply (alternates_power p)
  | divide t p => exact (alternates_term t).operator .divide (alternates_power p)

lemma alternates_power (p : Power) : Alternates p.tokens := by
  cases p with
  | factor f => exact alternates_factor f
  | raise f p => exact (alternates_factor f).operator .raise (alternates_power p)

lemma alternates_factor (f : Factor) : Alternates f.tokens := by
  cases f with
  | group e => exact (alternates_expr e).group
  | minus f => exact (alternates_factor f).sign rfl rfl
  | plus f => exact (alternates_factor f).sign rfl rfl
  | number digits => exact Token.alternates_number digits

end

/-! ### Spellings -/

/-- A text that spells the tokens.  A number is a run of digits and points, and an operator is
written in arithmetic or as the glyph of its key. -/
inductive Spells : List Token → Text → Prop where
  | nil : Spells [] []
  | space {ts : List Token} {t : Text} (h : Spells ts t) : Spells ts (' ' :: t)
  | number {digits : Text} {ts : List Token} {t : Text}
      (hd : ∀ c ∈ digits, Numeral.isPart c = true) (hne : digits ≠ []) (h : Spells ts t) :
      Spells (.number digits :: ts) (digits ++ t)
  | written (op : Operator) {ts : List Token} {t : Text} (h : Spells ts t) :
      Spells (.operator op :: ts) (op.written ++ t)
  | glyph (op : Operator) {ts : List Token} {t : Text} (h : Spells ts t) :
      Spells (.operator op :: ts) (op.glyph :: t)
  | opening {ts : List Token} {t : Text} (h : Spells ts t) : Spells (.opening :: ts) ('(' :: t)
  | closing {ts : List Token} {t : Text} (h : Spells ts t) : Spells (.closing :: ts) (')' :: t)

lemma canonical_written (op : Operator) (t : Text) :
    canonical (op.written ++ t) = op.written ++ canonical t := by
  cases op <;> rfl

lemma canonical_glyph (op : Operator) (t : Text) :
    canonical (op.glyph :: t) = op.written ++ canonical t := by
  cases op <;> rfl

lemma written_ne_nil (op : Operator) : op.written ≠ [] := by
  cases op <;> exact List.cons_ne_nil _ _

lemma canonical_parts {digits : Text} (hd : ∀ c ∈ digits, Numeral.isPart c = true) (t : Text) :
    canonical (digits ++ t) = digits ++ canonical t := by
  rw [canonical_append, canonical_eq_self fun c hc => Token.canonicalChar_of_isPart (hd c hc)]

namespace Spells

variable {ts : List Token} {t : Text}

/-- The text starts with the first character of its first token, or with a space. -/
lemma head?_canonical (h : Spells ts t) :
    ∀ c ∈ (canonical t).head?, c = ' ' ∨
      ∃ k ∈ ts.head?, c ∈ k.text.head? ∧ (k.isNumber = true → Numeral.isPart c = true) := by
  intro c hc
  cases h with
  | nil => simp [canonical_nil] at hc
  | space h => exact Or.inl (by simpa [canonical_cons, canonicalChar, eq_comm] using hc)
  | number hd hne h =>
    rw [canonical_parts hd, List.head?_append_of_ne_nil _ hne] at hc
    exact Or.inr ⟨_, rfl, hc, fun _ => hd c (List.mem_of_mem_head? hc)⟩
  | written op h =>
    rw [canonical_written, List.head?_append_of_ne_nil _ (written_ne_nil op)] at hc
    exact Or.inr ⟨_, rfl, hc, nofun⟩
  | glyph op h =>
    rw [canonical_glyph, List.head?_append_of_ne_nil _ (written_ne_nil op)] at hc
    exact Or.inr ⟨_, rfl, hc, nofun⟩
  | opening h => exact Or.inr ⟨_, rfl, hc, nofun⟩
  | closing h => exact Or.inr ⟨_, rfl, hc, nofun⟩

/-- A number in front of a text that starts with none is complete. -/
lemma startsApart_canonical (h : Spells ts t) (hts : ∀ k ∈ ts.head?, k.isNumber = false) :
    StartsApart (canonical t) := by
  intro c hc
  rcases h.head?_canonical c hc with rfl | ⟨k, hk, hck, -⟩
  · decide
  have hnumber := hts k hk
  rcases k with digits | op | _ | _
  · cases hnumber
  · exact startsApart_written op [] c (by rwa [List.append_nil])
  · obtain rfl : '(' = c := by simpa [Token.text] using hck
    decide
  · obtain rfl : ')' = c := by simpa [Token.text] using hck
    decide

/-- An operand does not start with a star. -/
lemma head?_canonical_ne_star (h : Spells ts t) (hts : ∀ k ∈ ts.head?, k.startsOperand = true) :
    ∀ c ∈ (canonical t).head?, c ≠ '*' := by
  rintro c hc rfl
  rcases h.head?_canonical '*' hc with hspace | ⟨k, hk, hck, hpart⟩
  · exact absurd hspace (by decide)
  have hstarts := hts k hk
  rcases k with digits | op | _ | _
  · exact absurd (hpart rfl) (by decide)
  · cases op
    case add => exact absurd hck (by decide)
    case subtract => exact absurd hck (by decide)
    all_goals cases hstarts
  · exact absurd hck (by decide)
  · cases hstarts

/-- **The tokens of a spelling.** -/
lemma scan_canonical (h : Spells ts t) (hts : ts.IsChain Follows) : scan (canonical t) = ts := by
  induction h with
  | nil => rfl
  | space h ih =>
    rw [canonical_cons]
    exact (Token.scanAfter_cons_of_ne (by decide) [] _).trans (ih hts)
  | number hd hne h ih =>
    have hfirst := h.startsApart_canonical fun k hk => hts.rel_head? hk
    have hscan := Token.scan_literal (s := []) (by simp) hd hne hfirst
    rw [canonical_parts hd, ← List.nil_append (_ ++ _), ← List.append_assoc, hscan, ih hts.tail]
    rfl
  | written op h ih =>
    have hfirst := h.head?_canonical_ne_star fun k hk => hts.rel_head? hk
    rw [canonical_written, Token.scan_written op hfirst, ih hts.tail]
  | glyph op h ih =>
    have hfirst := h.head?_canonical_ne_star fun k hk => hts.rel_head? hk
    rw [canonical_glyph, Token.scan_written op hfirst, ih hts.tail]
  | opening h ih =>
    rw [canonical_cons]
    exact (Token.scanAfter_cons_of_ne (by decide) [] _).trans (congrArg (_ :: ·) (ih hts.tail))
  | closing h ih =>
    rw [canonical_cons]
    exact (Token.scanAfter_cons_of_ne (by decide) [] _).trans (congrArg (_ :: ·) (ih hts.tail))

/-- No token is written with a root sign or a square. -/
lemma ne_of_mem (h : Spells ts t) {c : Char} (hc : c ∈ t) : c ≠ rootSign ∧ c ≠ squareSign := by
  induction h with
  | nil => cases hc
  | number hd hne h ih =>
    rcases List.mem_append.1 hc with hc | hc
    · have hpart := hd c hc
      exact ⟨Numeral.ne_of_isPart hpart (by decide), Numeral.ne_of_isPart hpart (by decide)⟩
    · exact ih hc
  | written op h ih =>
    rcases List.mem_append.1 hc with hc | hc
    · constructor <;> rintro rfl <;> cases op <;> exact absurd hc (by decide)
    · exact ih hc
  | glyph op h ih =>
    rcases List.mem_cons.1 hc with rfl | hc
    · cases op <;> decide
    · exact ih hc
  | _ h ih =>
    rcases List.mem_cons.1 hc with rfl | hc
    · decide
    · exact ih hc

end Spells

/-- **A text that spells an expression has its value.** -/
lemma evaluate_of_spells {e : Expr} (he : e.nesting ≤ nestingLimit) {t : Text}
    (ht : Spells e.tokens t) : evaluate t = e.value.mapError .invalid := by
  have hvalue : value (e.tokens ++ []) = e.value := value_tokens_append e he trivial
  rw [List.append_nil] at hvalue
  rw [evaluate_of_not_mem (fun hmem => (ht.ne_of_mem hmem).1 rfl)
    (fun hmem => (ht.ne_of_mem hmem).2 rfl), ht.scan_canonical (alternates_expr e).chain, hvalue]

end Expression

end DeskCalculator
