import DeskCalculator.Proofs.Expression.Balance

/-!
# The parenthesis that closes a group

The search for the end of a group goes over a text with a counter of the groups that are open.  What
the counter stands for is the balance of what has been read: groups opened less groups closed
(`openBehind_add_count`).  So the search ends at the first parenthesis that closes more than has
been opened, which is the one behind a balanced part (`splitClosing_eq_some_iff`), and it finds none
exactly if every prefix closes at most what it opens (`splitClosing_eq_none_iff`).

The place of the parenthesis is counted in bytes of the text, `closingOffset?`.  Two prefixes of one
text with equally many bytes are equal, so that the place determines the part in front of it.
-/

namespace DeskCalculator

namespace Expression

/-! ### The end of the search -/

lemma splitClosing_eq_some_iff {t inner rest : Text} :
    splitClosing 0 t = some (inner, rest) ↔ t = inner ++ ')' :: rest ∧ Balanced inner := by
  constructor
  · intro h
    exact ⟨eq_of_splitClosing h, balanced_of_splitClosing h⟩
  · rintro ⟨rfl, hinner⟩
    exact splitClosing_balanced hinner rest

lemma splitClosing_eq_none_iff {opened : Nat} {t : Text} :
    splitClosing opened t = none ↔ ClosesAtMost opened t := by
  constructor
  · exact closesAtMost_of_splitClosing_none
  · intro h
    -- the search goes over the whole text, and nothing is left behind it
    have hle : t.count ')' ≤ opened + t.count '(' := h t (List.prefix_refl t)
    have hover := splitClosing_append_of_closesAtMost
      (opened + t.count '(' - t.count ')') h (by omega) 0 []
    rw [Nat.zero_add, List.append_nil] at hover
    rw [hover, splitClosing]
    rfl

/-! ### The counter -/

lemma openBehind_cons (opened : Nat) (c : Char) (u : Text) :
    openBehind opened (c :: u) =
      openBehind (if c = '(' then opened + 1 else if c = ')' then opened - 1 else opened) u := rfl

/-- A text that the search has gone over leaves it with the counter `openBehind`. -/
lemma splitClosing_append {opened : Nat} {u : Text} (hu : splitClosing opened u = none)
    (t : Text) :
    splitClosing opened (u ++ t) =
      (splitClosing (openBehind opened u) t).map fun (inner, rest) => (u ++ inner, rest) := by
  induction u generalizing opened with
  | nil => exact Option.map_id'.symm
  | cons c u ih =>
    rw [splitClosing] at hu
    split at hu
    · cases hu
    · rename_i hgoes
      have hstill := Option.map_eq_none_iff.1 hu
      rw [List.cons_append, splitClosing, if_neg hgoes, openBehind_cons]
      dsimp only
      rw [ih hstill, Option.map_map]
      rfl

/-- **The counter is the balance.**  Where a text closes at most what is open, nothing is taken from
a counter that is zero. -/
lemma openBehind_add_count {opened : Nat} {u : Text} (h : ClosesAtMost opened u) :
    openBehind opened u + u.count ')' = opened + u.count '(' := by
  induction u generalizing opened with
  | nil => rfl
  | cons c u ih =>
    obtain ⟨next, hnext, hopened⟩ := exists_opened_next h.count_first 0
    rw [Nat.zero_add, Nat.zero_add] at hopened
    -- the counter behind `c` is `next`, and no subtraction was cut off at zero
    have hrest := ih ((closesAtMost_cons next hnext).1 h)
    rw [openBehind_cons, hopened, ← List.singleton_append, List.count_append, List.count_append]
    omega

/-- A parenthesis that the search goes over takes one from the counter. -/
lemma openBehind_concat_add_one {opened : Nat} {u : Text}
    (h : ClosesAtMost opened (u ++ [')'])) :
    openBehind opened (u ++ [')']) + 1 = openBehind opened u := by
  have hu : ClosesAtMost opened u := fun v hv => h v (hv.trans (List.prefix_append u [')']))
  have hbefore := openBehind_add_count hu
  have hbehind := openBehind_add_count h
  rw [List.count_append, List.count_append, show [')'].count ')' = 1 from rfl,
    show [')'].count '(' = 0 from rfl] at hbehind
  omega

/-! ### The place in bytes -/

lemma byteLength_append (s t : Text) : byteLength (s ++ t) = byteLength s + byteLength t := by
  rw [byteLength, String.ofList_append, String.utf8ByteSize_append]
  rfl

lemma byteLength_cons_pos (c : Char) (t : Text) : 0 < byteLength (c :: t) := by
  refine Nat.pos_of_ne_zero fun hzero => ?_
  have hempty : String.ofList (c :: t) = "" := String.utf8ByteSize_eq_zero_iff.1 hzero
  have hnil : c :: t = [] := by simpa using congrArg String.toList hempty
  exact List.cons_ne_nil c t hnil

lemma eq_nil_of_byteLength_append {s t : Text} (h : byteLength (s ++ t) = byteLength s) :
    t = [] := by
  rcases t with _ | ⟨c, t⟩
  · rfl
  · have hpos := byteLength_cons_pos c t
    rw [byteLength_append] at h
    omega

/-- Two prefixes of one text with equally many bytes are equal. -/
lemma prefix_eq_of_byteLength_eq {s s' t t' : Text} (h : s ++ t = s' ++ t')
    (hlength : byteLength s = byteLength s') : s = s' := by
  -- one of the two is a prefix of the other, and what it lacks has no bytes
  rcases List.append_eq_append_iff.1 h with ⟨w, rfl, -⟩ | ⟨w, rfl, -⟩
  · rw [eq_nil_of_byteLength_append hlength.symm, List.append_nil]
  · rw [eq_nil_of_byteLength_append hlength, List.append_nil]

/-- At byte `i` of the text stands a closing parenthesis, and the part in front of it is
balanced. -/
def IsClosingOffset (body : Text) (i : Nat) : Prop :=
  ∃ inner rest, body = inner ++ ')' :: rest ∧ byteLength inner = i ∧ Balanced inner

lemma closingOffset?_eq_some_iff {body : Text} {i : Nat} :
    closingOffset? body = some i ↔ IsClosingOffset body i := by
  constructor
  · intro h
    obtain ⟨⟨inner, rest⟩, hsplit, hlength⟩ := Option.map_eq_some_iff.1 h
    obtain ⟨hbody, hinner⟩ := splitClosing_eq_some_iff.1 hsplit
    exact ⟨inner, rest, hbody, hlength, hinner⟩
  · rintro ⟨inner, rest, hbody, rfl, hinner⟩
    rw [closingOffset?, splitClosing_eq_some_iff.2 ⟨hbody, hinner⟩]
    rfl

lemma closingOffset?_eq_none_iff {body : Text} :
    closingOffset? body = none ↔ ∀ u, u <+: body → u.count ')' ≤ u.count '(' := by
  rw [closingOffset?, Option.map_eq_none_iff, splitClosing_eq_none_iff, ClosesAtMost]
  simp only [Nat.zero_add]

namespace IsClosingOffset

variable {body : Text} {i j : Nat}

lemma unique (hi : IsClosingOffset body i) (hj : IsClosingOffset body j) : j = i :=
  Option.some.inj ((closingOffset?_eq_some_iff.2 hj).symm.trans (closingOffset?_eq_some_iff.2 hi))

lemma lt_byteLength (h : IsClosingOffset body i) : i < byteLength body := by
  obtain ⟨inner, rest, rfl, rfl, -⟩ := h
  have hpos := byteLength_cons_pos ')' rest
  rw [byteLength_append]
  omega

lemma isValid (h : IsClosingOffset body i) :
    String.Pos.Raw.IsValid (String.ofList body) ⟨i⟩ := by
  obtain ⟨inner, rest, rfl, rfl, -⟩ := h
  exact String.Pos.Raw.isValid_iff_exists_append.2
    ⟨String.ofList inner, String.ofList (')' :: rest), String.ofList_append, rfl⟩

/-- The part in front of the place is whatever prefix has that many bytes. -/
lemma of_prefix (h : IsClosingOffset body i) {s t : Text} (hbody : body = s ++ t)
    (hs : byteLength s = i) : t.head? = some ')' ∧ Balanced s := by
  obtain ⟨inner, rest, hsplit, hinner, hbalanced⟩ := h
  obtain rfl : s = inner :=
    prefix_eq_of_byteLength_eq (hbody.symm.trans hsplit) (hs.trans hinner.symm)
  obtain rfl : t = ')' :: rest := List.append_cancel_left (hbody.symm.trans hsplit)
  exact ⟨rfl, hbalanced⟩

end IsClosingOffset

/-- **The matching parenthesis is found.**  The search gives the byte `i` exactly if a closing
parenthesis stands there with a balanced part in front of it, and it divides the text at that place.
There is at most one such place; it is a boundary between characters within the text, and the only
prefix with that many bytes is the part in front of the parenthesis.  The search gives none exactly
if there is no such place, which is to say that no prefix closes more groups than it opens.  As long
as it goes on, its counter is the number of groups opened less those closed, and every closing
parenthesis that it goes over really takes one from it. -/
theorem closingOffset?_finds_match (body : Text) :
    (∀ i, closingOffset? body = some i ↔ IsClosingOffset body i) ∧
    (∀ inner rest, splitClosing 0 body = some (inner, rest) ↔
      body = inner ++ ')' :: rest ∧ Balanced inner) ∧
    (∀ i, IsClosingOffset body i →
      (∀ j, IsClosingOffset body j → j = i) ∧
      i < byteLength body ∧ String.Pos.Raw.IsValid (String.ofList body) ⟨i⟩ ∧
      ∀ s t, body = s ++ t → byteLength s = i → t.head? = some ')' ∧ Balanced s) ∧
    (closingOffset? body = none ↔ ¬∃ i, IsClosingOffset body i) ∧
    (closingOffset? body = none ↔ ∀ u, u <+: body → u.count ')' ≤ u.count '(') ∧
    ∀ u v, body = u ++ v → splitClosing 0 u = none →
      splitClosing 0 body =
        (splitClosing (openBehind 0 u) v).map (fun (inner, rest) => (u ++ inner, rest)) ∧
      openBehind 0 u + u.count ')' = u.count '(' ∧
      ∀ w, u = w ++ [')'] → openBehind 0 u + 1 = openBehind 0 w := by
  refine ⟨fun i => closingOffset?_eq_some_iff, fun inner rest => splitClosing_eq_some_iff, ?_, ?_,
    closingOffset?_eq_none_iff, ?_⟩
  · intro i hi
    exact ⟨fun j => hi.unique, hi.lt_byteLength, hi.isValid, fun s t => hi.of_prefix⟩
  · rw [Option.eq_none_iff_forall_ne_some, not_exists]
    exact forall_congr' fun i => not_congr closingOffset?_eq_some_iff
  · rintro u v rfl hu
    have hcloses : ClosesAtMost 0 u := splitClosing_eq_none_iff.1 hu
    refine ⟨splitClosing_append hu v, ?_, ?_⟩
    · rw [openBehind_add_count hcloses, Nat.zero_add]
    · rintro w rfl
      exact openBehind_concat_add_one hcloses

/-- A group with another one inside of it, a root sign of three bytes and a text behind it: the
parenthesis that closes stands at byte eight.  Behind the inner group the counter is back at
zero. -/
theorem closingOffset?_past_inner_group :
    let body := "√(9)+1)²)".toList
    closingOffset? body = some 8 ∧ 8 < byteLength body ∧
      String.Pos.Raw.IsValid (String.ofList body) ⟨8⟩ ∧
      splitClosing 0 body = some ("√(9)+1".toList, "²)".toList) ∧
      openBehind 0 "√(9)".toList + 1 = openBehind 0 "√(9".toList := by
  intro body
  obtain ⟨hoffset, hsplit, hplace, -, -, hcounter⟩ := closingOffset?_finds_match body
  have hinner : Balanced "√(9)+1".toList := balanced_of_splitClosing (t := body) rfl
  have hat : IsClosingOffset body 8 :=
    ⟨"√(9)+1".toList, "²)".toList, rfl, by decide, hinner⟩
  obtain ⟨-, hlt, hvalid, -⟩ := hplace 8 hat
  refine ⟨(hoffset 8).2 hat, hlt, hvalid, (hsplit _ _).2 ⟨rfl, hinner⟩, ?_⟩
  obtain ⟨-, -, htakes⟩ := hcounter "√(9)".toList "+1)²)".toList rfl rfl
  exact htakes "√(9".toList rfl

end Expression

end DeskCalculator
