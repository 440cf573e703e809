import DeskCalculator.Expression.Glyph
import DeskCalculator.Expression.Root
import Mathlib.Tactic.Lemma

/-!
# Balanced texts and root groups

Where a root group ends is found by counting parentheses.  A balanced text closes exactly the
groups that it opens, and so it does not change the count: in front of any other text it is
passed over as if it were not there (`splitClosing_append_of_balanced`).  From this it follows
that the group at the start of a text does not depend on which balanced text stands at a given
place of it (`group?_append_cases`).
-/

namespace DeskCalculator

namespace Expression

/-- A text in which no prefix closes more groups than it opens, and which closes in total as
many as it opens. -/
structure Balanced (t : Text) : Prop where
  /-- No prefix closes more than it opens. -/
  prefix_le : ∀ u, u <+: t → u.count ')' ≤ u.count '('
  /-- As many are closed as opened. -/
  total : t.count '(' = t.count ')'

/-- Every prefix of the text closes at most the groups that it opens and `opened` more. -/
def ClosesAtMost (opened : Nat) (t : Text) : Prop :=
  ∀ u, u <+: t → u.count ')' ≤ opened + u.count '('

lemma closesAtMost_nil (opened : Nat) : ClosesAtMost opened [] := by
  intro u hu
  rw [List.prefix_nil.1 hu]
  exact Nat.zero_le _

/-- What a first character does to the number of groups that may be closed. -/
lemma closesAtMost_cons {opened : Nat} (opened' : Nat) {c : Char} {t : Text}
    (hc : opened + [c].count '(' = opened' + [c].count ')') :
    ClosesAtMost opened (c :: t) ↔ ClosesAtMost opened' t := by
  constructor
  · intro h u hu
    have hcu := h (c :: u) ((List.prefix_cons_inj c).2 hu)
    rw [← List.singleton_append, List.count_append, List.count_append] at hcu
    omega
  · intro h u hu
    rcases List.prefix_cons_iff.1 hu with rfl | ⟨u', rfl, hu'⟩
    · exact Nat.zero_le _
    · have hcu := h u' hu'
      rw [← List.singleton_append, List.count_append, List.count_append]
      omega

lemma ClosesAtMost.count_first {opened : Nat} {c : Char} {t : Text}
    (h : ClosesAtMost opened (c :: t)) : [c].count ')' ≤ opened + [c].count '(' :=
  h [c] ⟨t, rfl⟩

/-- The arithmetic operators that canonical form writes are no parentheses. -/
lemma ClosesAtMost.canonical {opened : Nat} {t : Text} (h : ClosesAtMost opened t) :
    ClosesAtMost opened (canonical t) := by
  induction t generalizing opened with
  | nil => exact h
  | cons c t ih =>
    have hfirst := h.count_first
    have hc : opened + [c].count '(' = opened + [c].count '(' - [c].count ')' + [c].count ')' := by
      omega
    have hrest := ih ((closesAtMost_cons _ hc).1 h)
    rw [canonical_cons]
    unfold canonicalChar
    split
    · exact (closesAtMost_cons _ rfl).2 hrest
    · exact (closesAtMost_cons _ rfl).2 hrest
    · exact (closesAtMost_cons _ rfl).2 ((closesAtMost_cons opened rfl).2 hrest)
    · exact (closesAtMost_cons _ hc).2 hrest

lemma Balanced.closesAtMost {t : Text} (h : Balanced t) : ClosesAtMost 0 t := by
  intro u hu
  rw [Nat.zero_add]
  exact h.prefix_le u hu

lemma balanced_of_closesAtMost {t : Text} (h : ClosesAtMost 0 t)
    (htotal : t.count '(' = t.count ')') : Balanced t where
  prefix_le u hu := by
    have hcount := h u hu
    rwa [Nat.zero_add] at hcount
  total := htotal

lemma ClosesAtMost.append {opened opened' : Nat} {s t : Text} (hs : ClosesAtMost opened s)
    (htotal : opened + s.count '(' = opened' + s.count ')') (ht : ClosesAtMost opened' t) :
    ClosesAtMost opened (s ++ t) := by
  -- a prefix ends in the first part, or it goes on into the second
  rintro u ⟨v, huv⟩
  rcases List.append_eq_append_iff.1 huv with ⟨w, rfl, -⟩ | ⟨w, rfl, rfl⟩
  · exact hs u ⟨w, rfl⟩
  · have hcount := ht w ⟨v, rfl⟩
    rw [List.count_append, List.count_append]
    omega

lemma Balanced.canonical {t : Text} (h : Balanced t) : Balanced (canonical t) := by
  refine balanced_of_closesAtMost h.closesAtMost.canonical ?_
  rw [count_canonical rfl (by decide) (by decide), count_canonical rfl (by decide) (by decide)]
  exact h.total

/-- A balanced text in a group of its own is balanced. -/
lemma Balanced.group {t : Text} (h : Balanced t) : Balanced ('(' :: t ++ [')']) := by
  have htotal := h.total
  refine balanced_of_closesAtMost ?_ ?_
  · have hone : ClosesAtMost 1 t := by
      intro u hu
      exact Nat.le_trans (h.prefix_le u hu) (Nat.le_add_left _ 1)
    have hlast : ClosesAtMost 1 [')'] := (closesAtMost_cons 0 rfl).2 (closesAtMost_nil 0)
    exact (closesAtMost_cons 1 rfl).2 (hone.append (by omega) hlast)
  · rw [← List.singleton_append, List.append_assoc, List.count_append, List.count_append,
      List.count_append, List.count_append, htotal,
      show ['('].count '(' = [')'].count ')' from rfl,
      show [')'].count '(' = ['('].count ')' from rfl]
    omega

/-- A text without parentheses is balanced. -/
lemma balanced_of_not_mem {t : Text} (ho : '(' ∉ t) (hc : ')' ∉ t) : Balanced t where
  prefix_le u hu := by
    rw [List.count_eq_zero.2 fun hmem => hc (hu.subset hmem)]
    exact Nat.zero_le _
  total := by rw [List.count_eq_zero.2 ho, List.count_eq_zero.2 hc]

/-- The count behind a character, in the three cases of what the character is. -/
lemma exists_opened_next {extra : Nat} {c : Char} (hc : [c].count ')' ≤ extra + [c].count '(')
    (opened : Nat) :
    ∃ next, extra + [c].count '(' = next + [c].count ')' ∧
      (if c = '(' then opened + extra + 1
        else if c = ')' then opened + extra - 1 else opened + extra) = opened + next := by
  by_cases h₁ : c = '('
  · subst h₁
    exact ⟨extra + 1, rfl, if_pos rfl⟩
  by_cases h₂ : c = ')'
  · subst h₂
    have hpos : 1 ≤ extra := by simpa using hc
    refine ⟨extra - 1, ?_, ?_⟩
    · rw [show [')'].count '(' = 0 from rfl, show [')'].count ')' = 1 from rfl]
      omega
    · rw [if_neg (by decide), if_pos rfl]
      omega
  · refine ⟨extra, ?_, ?_⟩
    · rw [List.count_eq_zero.2 (by simpa using Ne.symm h₁),
        List.count_eq_zero.2 (by simpa using Ne.symm h₂)]
    · rw [if_neg h₁, if_neg h₂]

/-- The search for a closing parenthesis passes over a text that closes no more than has been
opened inside of the search, and counts what it leaves open. -/
lemma splitClosing_append_of_closesAtMost {x : Text} {extra : Nat} (extra' : Nat)
    (hx : ClosesAtMost extra x) (htotal : extra + x.count '(' = extra' + x.count ')')
    (opened : Nat) (t : Text) :
    splitClosing (opened + extra) (x ++ t) =
      (splitClosing (opened + extra') t).map fun (inner, rest) => (x ++ inner, rest) := by
  induction x generalizing extra with
  | nil =>
    obtain rfl : extra = extra' := by simpa using htotal
    exact Option.map_id'.symm
  | cons c x ih =>
    rw [← List.singleton_append, List.count_append, List.count_append] at htotal
    have hfirst := hx.count_first
    obtain ⟨next, hnext, hopened⟩ := exists_opened_next hfirst opened
    have hgoes : ¬(c = ')' ∧ opened + extra = 0) := by
      rintro ⟨rfl, hzero⟩
      have hpos : 1 ≤ extra := by simpa using hfirst
      omega
    have hrest := ih ((closesAtMost_cons next hnext).1 hx) (by omega)
    rw [List.cons_append, splitClosing, if_neg hgoes]
    dsimp only
    rw [hopened, hrest, Option.map_map]
    rfl

/-- A balanced text is passed over by the search for a closing parenthesis. -/
lemma splitClosing_append_of_balanced {x : Text} (hx : Balanced x) (opened : Nat) (t : Text) :
    splitClosing opened (x ++ t) =
      (splitClosing opened t).map fun (inner, rest) => (x ++ inner, rest) :=
  splitClosing_append_of_closesAtMost 0 hx.closesAtMost (by simpa using hx.total) opened t

/-- A group with a balanced text inside of it ends where that text ends. -/
lemma splitClosing_balanced {x : Text} (hx : Balanced x) (t : Text) :
    splitClosing 0 (x ++ ')' :: t) = some (x, t) := by
  rw [splitClosing_append_of_balanced hx, splitClosing, if_pos ⟨rfl, rfl⟩]
  simp

/-- A character that does not end the search for a closing parenthesis may be passed over. -/
lemma count_le_of_goes {c : Char} {opened : Nat} (h : ¬(c = ')' ∧ opened = 0)) :
    [c].count ')' ≤ opened + [c].count '(' := by
  by_cases hc : c = ')'
  · subst hc
    have hpos : opened ≠ 0 := fun hzero => h ⟨rfl, hzero⟩
    rw [show [')'].count ')' = 1 from rfl, show [')'].count '(' = 0 from rfl]
    omega
  · rw [List.count_eq_zero.2 (by simpa using Ne.symm hc)]
    exact Nat.zero_le _

/-- Where no closing parenthesis is found, every one in the text closes a group of its own. -/
lemma closesAtMost_of_splitClosing_none {opened : Nat} {t : Text}
    (h : splitClosing opened t = none) : ClosesAtMost opened t := by
  induction t generalizing opened with
  | nil => exact closesAtMost_nil opened
  | cons c t ih =>
    rw [splitClosing] at h
    split at h
    · cases h
    · rename_i hgoes
      obtain ⟨next, hnext, hopened⟩ := exists_opened_next (count_le_of_goes hgoes) 0
      rw [Nat.zero_add, Nat.zero_add] at hopened
      rw [hopened] at h
      exact (closesAtMost_cons next hnext).2 (ih (Option.map_eq_none_iff.1 h))

/-- The text in front of the closing parenthesis closes all groups that are open. -/
lemma closesAtMost_of_splitClosing_some {opened : Nat} {t inner rest : Text}
    (h : splitClosing opened t = some (inner, rest)) :
    ClosesAtMost opened inner ∧ opened + inner.count '(' = inner.count ')' := by
  induction t generalizing opened inner with
  | nil => cases h
  | cons c t ih =>
    rw [splitClosing] at h
    split at h
    · rename_i hc
      obtain ⟨rfl, -⟩ := Prod.mk.inj (Option.some.inj h)
      exact ⟨closesAtMost_nil opened, hc.2⟩
    · rename_i hgoes
      obtain ⟨⟨i, r⟩, hi, hr⟩ := Option.map_eq_some_iff.1 h
      obtain ⟨rfl, rfl⟩ := Prod.mk.inj hr
      obtain ⟨next, hnext, hopened⟩ := exists_opened_next (count_le_of_goes hgoes) 0
      rw [Nat.zero_add, Nat.zero_add] at hopened
      rw [hopened] at hi
      obtain ⟨hcloses, htotal⟩ := ih hi
      refine ⟨(closesAtMost_cons next hnext).2 hcloses, ?_⟩
      rw [← List.singleton_append, List.count_append, List.count_append]
      omega

lemma balanced_of_splitClosing {t inner rest : Text}
    (h : splitClosing 0 t = some (inner, rest)) : Balanced inner := by
  obtain ⟨hcloses, htotal⟩ := closesAtMost_of_splitClosing_some h
  exact balanced_of_closesAtMost hcloses (by simpa using htotal)

/-- A text either holds the closing parenthesis that is looked for, or it only changes the
number of groups that are open. -/
lemma splitClosing_append_cases (opened : Nat) (s : Text) :
    (∃ inner rest, s = inner ++ ')' :: rest ∧
        ∀ t, splitClosing opened (s ++ t) = some (inner, rest ++ t)) ∨
      ∃ opened', ∀ t, splitClosing opened (s ++ t) =
        (splitClosing opened' t).map fun (inner, rest) => (s ++ inner, rest) := by
  induction s generalizing opened with
  | nil => exact Or.inr ⟨opened, fun t => Option.map_id'.symm⟩
  | cons c s ih =>
    by_cases hc : c = ')' ∧ opened = 0
    · refine Or.inl ⟨[], s, by rw [hc.1, List.nil_append], fun t => ?_⟩
      rw [List.cons_append, splitClosing, if_pos hc]
    · have hstep : ∀ t, splitClosing opened (c :: s ++ t) =
          (splitClosing (if c = '(' then opened + 1
            else if c = ')' then opened - 1 else opened) (s ++ t)).map
              fun (inner, rest) => (c :: inner, rest) := by
        intro t
        rw [List.cons_append, splitClosing, if_neg hc]
      rcases ih (if c = '(' then opened + 1 else if c = ')' then opened - 1 else opened) with
        ⟨inner, rest, hs, hclosed⟩ | ⟨opened', hopen⟩
      · refine Or.inl ⟨c :: inner, rest, by rw [hs, List.cons_append], fun t => ?_⟩
        rw [hstep, hclosed]
        rfl
      · refine Or.inr ⟨opened', fun t => ?_⟩
        rw [hstep, hopen, Option.map_map]
        rfl

/-! ## Groups around a place -/

/-- A balanced text that starts with something else than a parenthesis. -/
structure IsOperand (x : Text) : Prop where
  balanced : Balanced x
  /-- The text is not empty and does not start with a parenthesis. -/
  head : ∃ c t, x = c :: t ∧ c ≠ '('

lemma IsOperand.ne_nil {x : Text} (hx : IsOperand x) : x ≠ [] := by
  obtain ⟨c, t, rfl, -⟩ := hx.head
  exact List.cons_ne_nil c t

lemma group?_eq_none_of_head {c : Char} (hc : c ≠ '(') (t : Text) : group? (c :: t) = none := by
  rw [group?]
  intro body hbody
  exact hc (List.cons.inj hbody).1

/-- **The group around a place.**  Whether a group starts the text, and where it ends, does not
depend on the operand that stands between `p` and `s`: the group ends in `p`, or there is none,
or it ends in `s` and has the operand inside of it. -/
lemma group?_append_cases (p s : Text) :
    (∃ inner rest, p = '(' :: inner ++ ')' :: rest ∧
        ∀ t, group? (p ++ t) = some (inner, rest ++ t)) ∨
      (∀ x, IsOperand x → group? (p ++ (x ++ s)) = none) ∨
      ∃ body inner rest, p = '(' :: body ∧ s = inner ++ ')' :: rest ∧
        ∀ x, IsOperand x → group? (p ++ (x ++ s)) = some (body ++ (x ++ inner), rest) := by
  rcases p with _ | ⟨c, body⟩
  · refine Or.inr (Or.inl fun x hx => ?_)
    obtain ⟨c, t, rfl, hc⟩ := hx.head
    exact group?_eq_none_of_head hc _
  by_cases hc : c ≠ '('
  · exact Or.inr (Or.inl fun x _ => group?_eq_none_of_head hc _)
  obtain rfl : c = '(' := Decidable.not_not.1 hc
  -- the parenthesis is closed in front of the place, or it is still open there
  rcases splitClosing_append_cases 0 body with ⟨inner, rest, hbody, hclosed⟩ | ⟨opened, hopen⟩
  · by_cases hinner : inner = []
    · refine Or.inr (Or.inl fun x _ => ?_)
      rw [List.cons_append, group?, hclosed, hinner]
      rfl
    · refine Or.inl ⟨inner, rest, by rw [hbody, List.cons_append], fun t => ?_⟩
      rw [List.cons_append, group?, hclosed]
      exact if_pos (decide_eq_true hinner)
  · have hplace : ∀ x, IsOperand x → splitClosing 0 (body ++ (x ++ s)) =
        (splitClosing opened s).map fun (inner, rest) => (body ++ (x ++ inner), rest) := by
      intro x hx
      rw [hopen, splitClosing_append_of_balanced hx.balanced, Option.map_map]
      rfl
    rcases hs : splitClosing opened s with _ | ⟨inner, rest⟩
    · refine Or.inr (Or.inl fun x hx => ?_)
      rw [List.cons_append, group?, hplace x hx, hs]
      rfl
    · refine Or.inr (Or.inr ⟨body, inner, rest, rfl, eq_of_splitClosing hs, fun x hx => ?_⟩)
      have hne : body ++ (x ++ inner) ≠ [] :=
        List.append_ne_nil_of_right_ne_nil _ (List.append_ne_nil_of_left_ne_nil hx.ne_nil _)
      rw [List.cons_append, group?, hplace x hx, hs]
      exact if_pos (decide_eq_true hne)

end Expression

end DeskCalculator
