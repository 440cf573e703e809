import DeskCalculator.Proofs.Session.Consistency

/-!
# Taking back what has been typed

A digit, the point, a parenthesis, and an operator behind an operand each add one character to the
expression, whatever the expression is (`Key.Adds`).  The backspace key takes one character away,
and what it leaves depends on the expression alone (`State.takenBack`).  Pressing it once for every
key that has been typed therefore leads back to the expression from before, and the ledger has never
changed.

The display need not come back: it shows the number at the end of the expression, or, if there is
none, the one that ends in front of its last character (`State.ShowsLast`), also where an operator
had left it at something else.
-/

namespace DeskCalculator

namespace Numeral

lemma isTrailingRun_iff {t r : Text} : IsTrailingRun t r ↔ r = trailing t := by
  constructor
  · rintro ⟨hpart, front, rfl, hfront⟩
    have hhead : front.reverse.takeWhile isPart = [] := by
      rcases List.eq_nil_or_concat front with rfl | ⟨u, c, rfl⟩
      · rfl
      · have hc : isPart c = false := hfront c (by simp)
        simp [hc]
    have hall : ∀ c ∈ r.reverse, isPart c = true := fun c hc => hpart c (List.mem_reverse.1 hc)
    rw [trailing, List.reverse_append, List.takeWhile_append_of_pos hall, hhead, List.append_nil,
      List.reverse_reverse]
  · rintro rfl
    exact isTrailingRun_trailing t

end Numeral

open Numeral

namespace State

/-- The text `d` is the number that the expression `t` ends with, else the one that it ends with
when its last character is taken away, else a zero. -/
inductive ShowsLast (t : Text) : Text → Prop
  | atEnd {d : Text} (h : IsTrailingRun t d) (hne : d ≠ []) : ShowsLast t d
  | beforeEnd {d : Text} (h : IsTrailingRun t []) (hd : IsTrailingRun t.dropLast d) (hne : d ≠ []) :
      ShowsLast t d
  | nowhere (h : IsTrailingRun t []) (hd : IsTrailingRun t.dropLast []) : ShowsLast t ['0']

/-- The state that the backspace key leaves with the expression `t`. -/
def takenBack (t : Text) : State :=
  ⟨t, if trailing t = [] then preview t.dropLast else trailing t, false⟩

lemma backspace_eq (st : State) : st.backspace = takenBack st.expression.dropLast := rfl

lemma showsLast_display (t : Text) : ShowsLast t (takenBack t).display := by
  have ht := isTrailingRun_trailing t
  have ht' := isTrailingRun_trailing t.dropLast
  rw [takenBack]
  dsimp only
  split
  · rename_i hnil
    rw [hnil] at ht
    rw [preview]
    split
    · rename_i hnil'
      rw [hnil'] at ht'
      exact .nowhere ht ht'
    · rename_i hne
      exact .beforeEnd ht ht' hne
  · rename_i hne
    exact .atEnd ht hne

/-- The display behind the backspace key depends on the expression alone. -/
lemma showsLast_iff {t d : Text} : ShowsLast t d ↔ (takenBack t).display = d := by
  constructor
  · rw [takenBack]
    dsimp only
    rintro (⟨h, hne⟩ | ⟨h, hd, hne⟩ | ⟨h, hd⟩)
    · rw [isTrailingRun_iff.1 h] at hne ⊢
      exact if_neg hne
    · rw [isTrailingRun_iff.1 hd] at hne ⊢
      rw [if_pos (isTrailingRun_iff.1 h).symm, preview, if_neg hne]
    · rw [if_pos (isTrailingRun_iff.1 h).symm, preview, if_pos (isTrailingRun_iff.1 hd).symm]
  · rintro rfl
    exact showsLast_display t

end State

/-- The key adds a character to the expression `t`. -/
inductive Key.Adds (t : Text) : Key → Prop
  | digit (d : Fin 10) : Adds t (.digit d)
  | point : Adds t .point
  | parenthesis : Adds t .parenthesis
  /-- An operator behind an operand: at the start it is ignored, and behind another operator it
  takes the place of that one. -/
  | operator (op : Operator) (hne : t ≠ []) (hlast : ∀ c ∈ t.getLast?, Operator.isGlyph c = false) :
      Adds t (.operator op)

lemma Key.adds_operator {t : Text} {c : Char} (hlast : t.getLast? = some c)
    (hc : Operator.isGlyph c = false) (op : Operator) : Adds t (.operator op) := by
  refine .operator op ?_ ?_
  · rintro rfl
    cases hlast
  · intro d hd
    rw [hlast] at hd
    rwa [← Option.some.inj hd]

namespace Session

/-- The keys add a character each when they are pressed one after the other. -/
inductive Types : Session → List Key → Prop
  | nil (s : Session) : Types s []
  | cons {s : Session} {k : Key} {ks : List Key} (hk : k.Adds s.state.expression)
      (h : Types (s.act k.action) ks) : Types s (k :: ks)

variable {s : Session}

/-- One key that is typed. -/
lemma act_of_adds {k : Key} (hj : s.state.justComputed = false) (hk : k.Adds s.state.expression) :
    ∃ c, (s.act k.action).state.expression = s.state.expression ++ [c] ∧
      (s.act k.action).state.justComputed = false ∧ (s.act k.action).ledger = s.ledger := by
  cases hk with
  | digit d =>
    refine ⟨d.val.digitChar, ?_⟩
    have hd : ¬ 9 < d.val := by omega
    simp [Key.action, act, State.digit, State.editing, hd, hj]
  | point => exact ⟨'.', by simp [Key.action, act, State.point, State.editing, hj]⟩
  | parenthesis =>
    simp [Key.action, act, State.parenthesis, State.editing, hj]
  | operator op hne hlast =>
    refine ⟨op.glyph, ?_⟩
    have hglyph : s.state.expression.getLast?.any Operator.isGlyph = false := by
      cases hg : s.state.expression.getLast? with
      | none => rfl
      | some g => exact hlast g hg
    simp [Key.action, act, State.operator, hj, hne, hglyph]

/-- Several keys that are typed. -/
lemma press_of_types {ks : List Key} (hj : s.state.justComputed = false) (h : s.Types ks) :
    ∃ cs : Text, cs.length = ks.length ∧ (s.press ks).state.expression = s.state.expression ++ cs ∧
      (s.press ks).ledger = s.ledger := by
  induction h with
  | nil s => exact ⟨[], rfl, (List.append_nil _).symm, rfl⟩
  | @cons s k ks hk _ ih =>
    obtain ⟨c, hexpr, hj', hledger⟩ := act_of_adds hj hk
    obtain ⟨cs, hlen, hexprs, hledgers⟩ := ih hj'
    refine ⟨c :: cs, by rw [List.length_cons, hlen, List.length_cons], ?_, hledgers.trans hledger⟩
    rw [hexpr, List.append_assoc] at hexprs
    exact hexprs

/-- As many backspaces as there are characters behind the text `t` lead back to it. -/
lemma press_backspaces {t cs : Text} (h : s.state.expression = t ++ cs) (hne : cs ≠ []) :
    s.press (List.replicate cs.length .backspace) = { s with state := .takenBack t } := by
  induction cs using List.reverseRecOn generalizing s with
  | nil => exact absurd rfl hne
  | append_singleton cs c ih =>
    have hfirst : s.act .backspace = { s with state := .takenBack (t ++ cs) } := by
      rw [act, State.backspace_eq, h, ← List.append_assoc, List.dropLast_concat]
    rw [List.length_append, List.length_singleton, List.replicate_succ]
    change (s.act .backspace).press _ = _
    rw [hfirst]
    by_cases hcs : cs = []
    · rw [hcs, List.append_nil]
      rfl
    · exact ih rfl hcs

/-- **Backspaces take back what has been typed.**  While no result is shown, let some keys be
pressed: digits, points, parentheses, and operators where an operand stands before them.  Pressing
backspace as often leads back to the same expression and the same ledger, without a result.  The
display then shows the number that the expression ends with, else the one in front of its last
character, else a zero. -/
theorem backspaces_after_typing {ks : List Key} (hj : s.state.justComputed = false)
    (hne : ks ≠ []) (h : s.Types ks) :
    let u := s.press (ks ++ List.replicate ks.length .backspace)
    u.state.expression = s.state.expression ∧ u.state.justComputed = false ∧ u.ledger = s.ledger ∧
      ∀ d, u.state.display = d ↔ State.ShowsLast s.state.expression d := by
  intro u
  obtain ⟨cs, hlen, hexpr, hledger⟩ := press_of_types hj h
  have hcs : cs ≠ [] := by
    rintro rfl
    exact hne (List.length_eq_zero_iff.1 hlen.symm)
  have hu : u = ⟨.takenBack s.state.expression, s.ledger⟩ := by
    change s.press _ = _
    rw [press_append, ← hlen, press_backspaces hexpr hcs, hledger]
  rw [hu]
  exact ⟨rfl, rfl, rfl, fun d => State.showsLast_iff.symm⟩

/-- A group, a product in it and an operator behind it are taken back from `2-`, where the display
goes back to the number in front of the operator. -/
theorem backspaces_after_typing_group :
    let s := run [.digit 2, .operator .subtract]
    let ks : List Key := [.parenthesis, .digit 1, .operator .multiply, .point, .digit 5,
      .parenthesis, .operator .divide]
    let u := s.press (ks ++ List.replicate 7 .backspace)
    s.state.justComputed = false ∧ s.Types ks ∧ u.state.expression = "2-".toList ∧
      u.state.justComputed = false ∧ u.ledger = s.ledger ∧ u.state.display = ['2'] := by
  intro s ks u
  have htypes : s.Types ks :=
    .cons .parenthesis <| .cons (.digit 1) <| .cons (Key.adds_operator rfl (c := '1') rfl _) <|
      .cons .point <| .cons (.digit 5) <| .cons .parenthesis <|
      .cons (Key.adds_operator rfl (c := ')') rfl _) <| .nil _
  obtain ⟨hexpr, hj, hledger, hdisplay⟩ := backspaces_after_typing rfl (by decide) htypes
  refine ⟨rfl, htypes, hexpr, hj, hledger, (hdisplay ['2']).2 (.beforeEnd ?_ ?_ (by decide))⟩
  · exact isTrailingRun_iff.2 (by decide)
  · exact isTrailingRun_iff.2 (by decide)

end Session

end DeskCalculator
