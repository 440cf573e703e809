import DeskCalculator.Proofs.Number.Exact
import DeskCalculator.Proofs.Session.Consistency
import DeskCalculator.Proofs.Session.Glyphs

/-!
# What an expression starts with

An operator key that is pressed on an empty expression is ignored, and so no expression is begun
with an operator.  A result can be negative, however, and its sign is a character like any other
when the result becomes the expression.  If everything behind the sign is taken away, the next
operator key finds the glyph of an operator at the end and takes its place.  This is the only way
for `+`, `×`, `÷` or `^` to come to the front (`leading_operator_run`).

The first character of an expression is looked at action by action (`leadsFrom_act`): it is kept,
typed as a part of a number or a parenthesis, taken over from a result or from the ledger, or typed
over a lone glyph.  From this follows by induction on the run that a glyph at the front goes back to
a negative result (`signedSince_of_hasLeadingGlyph`), and one that is not the minus to an operator
that was typed over the sign (`explained_run`).
-/

namespace DeskCalculator

open Binary64

/-- A result that starts with the glyph of an operator is a negative number behind its sign. -/
lemma Display.lt_zero_of_isGlyph {x : Float} {c : Char} (hc : c ∈ (Display.text x).head?)
    (hglyph : Operator.isGlyph c = true) : c = '-' ∧ x < 0 := by
  rw [Display.text] at hc
  split at hc
  · obtain rfl : 'E' = c := by simpa [Display.error] using hc
    exact absurd hglyph (by decide)
  · rename_i negative hx
    cases negative with
    | true => exact ⟨by simpa using hc.symm, lt_zero_of_infinite hx⟩
    | false =>
      obtain rfl : 'I' = c := by simpa using hc
      exact absurd hglyph (by decide)
  · rename_i negative m q hx
    split at hc
    · obtain rfl : '0' = c := by simpa using hc
      exact absurd hglyph (by decide)
    · rename_i hm
      cases negative with
      | true => exact ⟨by simpa using hc.symm, lt_zero_of_finite hx (Nat.pos_of_ne_zero hm)⟩
      | false =>
        obtain ⟨t, ht⟩ := List.head?_eq_some_iff.1 hc
        have hordinary : Text.Ordinary c :=
          Text.ordinary_of_isPart (Display.isPart_head_fraction ht)
        exact absurd (hordinary.1.symm.trans hglyph) (by decide)

namespace Session

/-! ### One action -/

/-- Where the first character `c` of the expression comes from when the action `a` is taken. -/
inductive LeadsFrom (s : Session) (a : Action) (c : Char) : Prop
  /-- A part of a number or a parenthesis has been typed. -/
  | typed (h : Operator.isGlyph c = false)
  | kept (h : c ∈ s.state.expression.head?)
  /-- An operator goes on from the result that was shown. -/
  | continued (hj : s.state.justComputed = true) (h : c ∈ s.state.display.head?)
  /-- The result that is shown has become the expression. -/
  | result (hj : (s.act a).state.justComputed = true) (h : c ∈ (s.act a).state.display.head?)
  | recalled (e : Entry) (he : e ∈ s.ledger.toList) (h : c ∈ e.expression.head?)
  /-- The operator takes the place of a glyph that was all of the expression. -/
  | replaced (op : Operator) (ha : a = .operator op) (hc : op.glyph = c)
      (hj : s.state.justComputed = false) (g : Char) (hg : Operator.isGlyph g = true)
      (hexpr : s.state.expression = [g])

section

variable {s : Session} {a : Action} {c : Char}

lemma head?_concat {t : Text} {d : Char} (h : c ∈ (t ++ [d]).head?) :
    c ∈ t.head? ∨ t = [] ∧ d = c := by
  cases t with
  | nil => exact Or.inr ⟨rfl, by simpa using h⟩
  | cons e t => exact Or.inl (by simpa using h)

lemma mem_head?_of_dropLast {t : Text} (h : c ∈ t.dropLast.head?) : c ∈ t.head? := by
  obtain ⟨u, hu⟩ := List.dropLast_prefix t
  rw [← hu]
  exact List.mem_head?_append_of_mem_head? h

/-- A character that is no glyph is typed behind the expression, or behind the text `t` if a result
is shown. -/
lemma leadsFrom_typed {t : Text} (ht : ∀ e ∈ t.head?, Operator.isGlyph e = false) {d : Char}
    (hd : Operator.isGlyph d = false)
    (h : c ∈ ((if s.state.justComputed then t else s.state.expression) ++ [d]).head?) :
    LeadsFrom s a c := by
  rcases head?_concat h with h | ⟨-, rfl⟩
  · split at h
    · exact .typed (ht c h)
    · exact .kept h
  · exact .typed hd

lemma leadsFrom_operator {op : Operator} (hd : s.state.display ≠ [])
    (h : c ∈ (s.state.operator op).expression.head?) : LeadsFrom s (.operator op) c := by
  unfold State.operator at h
  split at h
  · rename_i hj
    rcases head?_concat h with h | ⟨hnil, -⟩
    · exact .continued hj h
    · exact absurd hnil hd
  · rename_i hj
    split at h
    · exact .kept h
    · rename_i hne
      dsimp only at h
      split at h
      · rename_i hlast
        rcases head?_concat h with h | ⟨hnil, hc⟩
        · exact .kept (mem_head?_of_dropLast h)
        · obtain ⟨u, g, hu⟩ := (List.eq_nil_or_concat' _).resolve_left hne
          rw [hu, List.dropLast_concat] at hnil
          rw [hu, List.getLast?_concat] at hlast
          exact .replaced op rfl hc (by simpa using hj) g hlast (by rw [hu, hnil, List.nil_append])
      · rcases head?_concat h with h | ⟨hnil, -⟩
        · exact .kept h
        · exact absurd hnil hne

/-- **Where the first character comes from.** -/
lemma leadsFrom_act (hd : s.state.display ≠ []) (h : c ∈ (s.act a).state.expression.head?) :
    LeadsFrom s a c := by
  cases a with
  | digit n =>
    rw [act, State.digit] at h
    split at h
    · exact .kept h
    · rename_i hn
      have hdigit := Text.ordinary_of_isPart (Keeps.isPart_digitChar (Nat.not_lt.1 hn))
      exact leadsFrom_typed (by simp) hdigit.1 h
  | point => exact leadsFrom_typed (by simp; decide) (by decide) h
  | operator op => exact leadsFrom_operator hd h
  | parenthesis =>
    have hparenthesis : ∀ (p : Prop) [Decidable p],
        Operator.isGlyph (if p then ')' else '(') = false := by
      intro p _
      split <;> decide
    exact leadsFrom_typed (by simp) (hparenthesis _) h
  | backspace => exact .kept (mem_head?_of_dropLast h)
  | clear => cases h
  | compute =>
    rw [act, compute] at h
    split at h
    · exact .kept h
    · split at h <;> cases h
  | function f => exact .result rfl h
  | clearHistory => exact .kept h
  | select i =>
    rw [act, select?] at h
    cases hi : s.ledger.get? i with
    | none =>
      rw [hi] at h
      exact .kept h
    | some e =>
      rw [hi] at h
      exact .recalled e (List.mem_of_getElem? hi) h

/-- An entry of the ledger after an action was there before, or its expression has been computed. -/
lemma expression_of_mem_ledger_act {e : Entry} (he : e ∈ (s.act a).ledger.toList) :
    e ∈ s.ledger.toList ∨ e.expression = s.state.expression := by
  by_cases hclear : a = .clearHistory
  · subst hclear
    cases he
  by_cases hcompute : a = .compute
  · subst hcompute
    rw [act, toList_ledger_compute, List.mem_append, Option.mem_toList] at he
    refine he.imp_right fun he => ?_
    obtain ⟨-, x, -, rfl⟩ := entryOf?_eq_some_iff.1 he
    rfl
  · rw [ledger_act _ hcompute hclear] at he
    exact Or.inl he

end

/-! ### Signs -/

/-- The text starts with the glyph of an operator. -/
def StartsWithGlyph (t : Text) : Prop := ∃ c ∈ t.head?, Operator.isGlyph c = true

/-- Somewhere in the session the glyph of an operator comes first: in the expression, in a result
that is shown, or in an expression of the ledger. -/
def HasLeadingGlyph (s : Session) : Prop :=
  StartsWithGlyph s.state.expression ∨
    (s.state.justComputed = true ∧ StartsWithGlyph s.state.display) ∨
    ∃ e ∈ s.ledger.toList, StartsWithGlyph e.expression

/-- A glyph of an operator that comes first after an action did so before, or it has come with a
result. -/
lemma hasLeadingGlyph_of_act {s : Session} {a : Action} (hd : s.state.display ≠ [])
    (h : HasLeadingGlyph (s.act a)) :
    HasLeadingGlyph s ∨
      (s.act a).state.justComputed = true ∧ StartsWithGlyph (s.act a).state.display := by
  rcases h with ⟨c, hc, hglyph⟩ | hshown | ⟨e, he, hfirst⟩
  · cases leadsFrom_act hd hc with
    | typed hno => exact absurd (hno.symm.trans hglyph) (by decide)
    | kept hc => exact Or.inl (Or.inl ⟨c, hc, hglyph⟩)
    | continued hj hc => exact Or.inl (Or.inr (Or.inl ⟨hj, c, hc, hglyph⟩))
    | result hj hc => exact Or.inr ⟨hj, c, hc, hglyph⟩
    | recalled e he hc => exact Or.inl (Or.inr (Or.inr ⟨e, he, c, hc, hglyph⟩))
    | replaced op ha hop hj g hg hexpr =>
      exact Or.inl (Or.inl ⟨g, by rw [hexpr]; rfl, hg⟩)
  · exact Or.inr hshown
  · rcases expression_of_mem_ledger_act he with he | hexpr
    · exact Or.inl (Or.inr (Or.inr ⟨e, he, hfirst⟩))
    · exact Or.inl (Or.inl (hexpr ▸ hfirst))

/-- In the run, a negative number has been shown as a result, behind its sign, and from then on
there has been a leading glyph in the session. -/
def SignedSince (as : List Action) : Prop :=
  ∃ bs x, bs <+: as ∧ (run bs).state.justComputed = true ∧
    (run bs).state.display = Display.text x ∧ (Display.text x).head? = some '-' ∧ x < 0 ∧
    ∀ ds, bs <+: ds → ds <+: as → HasLeadingGlyph (run ds)

/-- A leading glyph is there because of a negative result. -/
lemma signedSince_of_hasLeadingGlyph {as : List Action} (h : HasLeadingGlyph (run as)) :
    SignedSince as := by
  induction as using List.reverseRecOn with
  | nil => simp [HasLeadingGlyph, StartsWithGlyph, run, initial, State.initial] at h
  | append_singleton as a ih =>
    have hact : HasLeadingGlyph ((run as).act a) := by rwa [← run_concat]
    rcases hasLeadingGlyph_of_act (consistent_run as).display_ne_nil hact with hbefore | hshown
    · obtain ⟨bs, x, hbs, hj, hx, hsign, hneg, hsince⟩ := ih hbefore
      refine ⟨bs, x, hbs.trans (List.prefix_append as [a]), hj, hx, hsign, hneg, ?_⟩
      intro ds hds hda
      rcases List.prefix_concat_iff.1 hda with rfl | hda
      · exact h
      · exact hsince ds hds hda
    · -- the result that is shown now starts with the glyph
      rw [← run_concat] at hshown
      obtain ⟨hj, c, hc, hglyph⟩ := hshown
      obtain ⟨x, hx⟩ := ((consistent_run _).shown hj).exists_result
      rw [hx] at hc
      obtain ⟨rfl, hneg⟩ := Display.lt_zero_of_isGlyph hc hglyph
      refine ⟨as ++ [a], x, List.prefix_refl _, hj, hx, hc, hneg, fun ds hds hda => ?_⟩
      rwa [← hds.eq_of_length_le hda.length_le]

/-! ### Operators over a sign -/

/-- In the run, an operator other than the minus has been typed over a minus that was all of the
expression. -/
def SignReplaced (as : List Action) : Prop :=
  ∃ bs op, bs ++ [.operator op] <+: as ∧ op ≠ .subtract ∧ (run bs).state.justComputed = false ∧
    (run bs).state.expression = ['-']

/-- If the text starts with the glyph of an operator other than the minus, the run explains it. -/
def Explained (as : List Action) (t : Text) : Prop :=
  ∀ c ∈ t.head?, Operator.isGlyph c = true → c ≠ '-' → SignReplaced as

section

variable {as : List Action}

lemma SignReplaced.concat (h : SignReplaced as) (a : Action) : SignReplaced (as ++ [a]) := by
  obtain ⟨bs, op, hbs, h⟩ := h
  exact ⟨bs, op, hbs.trans (List.prefix_append as [a]), h⟩

lemma Explained.concat {t : Text} (h : Explained as t) (a : Action) : Explained (as ++ [a]) t :=
  fun c hc hglyph hne => (h c hc hglyph hne).concat a

/-- Results are negative where they start with a glyph. -/
lemma explained_display (hj : (run as).state.justComputed = true) (bs : List Action) :
    Explained bs (run as).state.display := by
  intro c hc hglyph hne
  obtain ⟨x, hx⟩ := ((consistent_run as).shown hj).exists_result
  rw [hx] at hc
  exact absurd (Display.lt_zero_of_isGlyph hc hglyph).1 hne

/-- One action after a run whose expressions are explained. -/
lemma explained_act (a : Action) (hexpr : Explained as (run as).state.expression)
    (hledger : ∀ e ∈ (run as).ledger.toList, Explained as e.expression) :
    Explained (as ++ [a]) ((run as).act a).state.expression := by
  intro c hc hglyph hne
  cases leadsFrom_act (consistent_run as).display_ne_nil hc with
  | typed hno => exact absurd (hno.symm.trans hglyph) (by decide)
  | kept hc => exact hexpr.concat a c hc hglyph hne
  | continued hj hc => exact explained_display hj _ c hc hglyph hne
  | result hj hc =>
    rw [← run_concat] at hj hc
    exact explained_display hj _ c hc hglyph hne
  | recalled e he hc => exact (hledger e he).concat a c hc hglyph hne
  | replaced op ha hop hj g hg hlone =>
    by_cases hsign : g = '-'
    · refine ⟨as, op, by rw [ha], ?_, hj, by rw [hlone, hsign]⟩
      rintro rfl
      exact hne hop.symm
    · exact (hexpr g (by rw [hlone]; rfl) hg hsign).concat a

/-- Every run explains its expression and those of the ledger. -/
lemma explained_run (as : List Action) :
    Explained as (run as).state.expression ∧
      ∀ e ∈ (run as).ledger.toList, Explained as e.expression := by
  induction as using List.reverseRecOn with
  | nil =>
    constructor
    · intro c hc
      cases hc
    · intro e he
      cases he
  | append_singleton as a ih =>
    obtain ⟨hexpr, hledger⟩ := ih
    rw [run_concat]
    refine ⟨explained_act a hexpr hledger, fun e he => ?_⟩
    rcases expression_of_mem_ledger_act he with he | heq
    · exact (hledger e he).concat a
    · exact heq ▸ hexpr.concat a

end

/-- **Operators come to the front only over the sign of a result.**  If the expression after a run
starts with the glyph of an operator, a negative number has been shown as a result before, behind
its sign, and from then on there has been such a leading glyph in the session.  If the glyph is not
the minus, an operator other than the minus has been typed while a minus was all of the expression;
and whenever an operator is typed there, it takes the place of the minus. -/
theorem leading_operator_run (as : List Action) :
    let t := (run as).state.expression
    (∀ op, t.head? = some (Operator.glyph op) → SignedSince as) ∧
    (∀ op, op ≠ .subtract → t.head? = some (Operator.glyph op) → SignReplaced as) ∧
    ∀ op, (run as).state.justComputed = false → t = ['-'] →
      (run (as ++ [.operator op])).state.expression = [op.glyph] := by
  intro t
  refine ⟨fun op hop => ?_, fun op hne hop => ?_, fun op hj ht => ?_⟩
  · exact signedSince_of_hasLeadingGlyph (Or.inl ⟨_, hop, Operator.isGlyph_glyph op⟩)
  · refine (explained_run as).1 _ hop (Operator.isGlyph_glyph op) fun hglyph => hne ?_
    cases op <;> first | rfl | exact absurd hglyph (by decide)
  · rw [run_concat, act, State.operator, hj, show (run as).state.expression = ['-'] from ht]
    rfl

/-- The sign of `-5` is left when the digit is taken away, and a plus is typed over it. -/
theorem leading_operator_over_sign :
    let as : List Action := [.digit 5, .function .negate, .backspace]
    (run (as ++ [.operator .add])).state.expression = ['+'] ∧
      SignedSince (as ++ [.operator .add]) ∧ SignReplaced (as ++ [.operator .add]) := by
  intro as
  obtain ⟨-, -, hreplaced⟩ := leading_operator_run as
  obtain ⟨hsigned, hsign, -⟩ := leading_operator_run (as ++ [.operator .add])
  have hplus : (run (as ++ [.operator .add])).state.expression = ['+'] :=
    hreplaced .add (by decide +kernel) (by decide +kernel)
  exact ⟨hplus, hsigned .add (by rw [hplus]; rfl), hsign .add (by decide) (by rw [hplus]; rfl)⟩

/-- The expression after the keys `5`, `±`, backspace and `+` starts with the operator. -/
theorem head?_expression_plus :
    (run [.digit 5, .function .negate, .backspace, .operator .add]).state.expression.head? =
      some Operator.add.glyph := by
  decide +kernel

end Session

end DeskCalculator
