import DeskCalculator.Proofs.Expression.RootSubstitution

/-!
# Why an evaluation ends

The evaluation of a text goes over its canonical form, stops at every root group and evaluates the
text inside of it.  Neither the length of that text nor the length of what has been written shows
that this comes to an end: canonical form makes a text longer, and so do the digits of the roots.
The root signs do, and for one text what is left to go over.

To see this, evaluation is taken apart into its steps.  A `Pass` is the way over one text, and a
`Stage` has the passes on it that wait for the value of a group.  `Stage.next` is one step: a pass
goes on to the next root sign, a text inside of a group is begun, or the outcome of one is given
back.  The module is carried by what a step preserves, namely what evaluation makes of the stage
(`outcome_next`), and by what it takes away (`potential_next`).
-/

namespace DeskCalculator

namespace Expression

/-! ### The next root of a text -/

/-- No root group can be read from the start of the text: it does not start with a parenthesis, or
that is not closed, or nothing stands inside. -/
inductive NoGroup : Text → Prop
  | apart {t : Text} (h : '(' ∉ t.head?) : NoGroup t
  | unclosed {body : Text} (h : ClosesAtMost 0 body) : NoGroup ('(' :: body)
  | empty (behind : Text) : NoGroup ('(' :: ')' :: behind)

lemma noGroup_of_group? {t : Text} (h : group? t = none) : NoGroup t := by
  rcases t with _ | ⟨c, body⟩
  · exact .apart (by simp)
  by_cases hc : c = '('
  · subst hc
    rw [group?] at h
    cases hbody : splitClosing 0 body with
    | none => exact .unclosed (closesAtMost_of_splitClosing_none hbody)
    | some divided =>
      obtain ⟨inner, behind⟩ := divided
      rw [hbody, Option.filter_eq_none_iff] at h
      obtain rfl : inner = [] := by simpa using h _ rfl
      rw [eq_of_splitClosing hbody]
      exact .empty behind
  · exact .apart (by simpa using hc)

lemma balanced_of_group? {t inner behind : Text} (h : group? t = some (inner, behind)) :
    Balanced inner ∧ inner ≠ [] := by
  unfold group? at h
  split at h
  · obtain ⟨hbody, hne⟩ := Option.filter_eq_some_iff.1 h
    exact ⟨balanced_of_splitClosing hbody, of_decide_eq_true hne⟩
  · cases h

/-- The first root sign of a text, and the group that it starts. -/
inductive FirstRoot (t : Text) where
  /-- There is no root sign. -/
  | absent (h : rootSign ∉ t)
  /-- The root sign has no group. -/
  | alone (before after : Text) (split : t = before ++ rootSign :: after)
      (first : rootSign ∉ before) (h : group? after = none)
  /-- The root sign has a group. -/
  | grouped (before after inner behind : Text) (split : t = before ++ rootSign :: after)
      (first : rootSign ∉ before) (h : group? after = some (inner, behind))

lemma rootSign_not_mem_takeWhile (t : Text) : rootSign ∉ t.takeWhile (· ≠ rootSign) := by
  intro h
  have hne := List.mem_takeWhile_imp h
  simp at hne

lemma eq_of_dropWhile {t after : Text} {c : Char} (h : t.dropWhile (· ≠ rootSign) = c :: after) :
    t = t.takeWhile (· ≠ rootSign) ++ rootSign :: after := by
  have hc : c = rootSign := by
    have hhead := List.head?_dropWhile_not (· ≠ rootSign) t
    rw [h] at hhead
    simpa using hhead
  subst hc
  rw [← h]
  exact List.takeWhile_append_dropWhile.symm

lemma suffix_of_split {t before after : Text} (h : t = before ++ rootSign :: after) :
    after <:+ t :=
  ⟨before ++ [rootSign], by rw [h, List.append_assoc, List.singleton_append]⟩

lemma suffix_of_group? {t inner behind : Text} (h : group? t = some (inner, behind)) :
    behind <:+ t :=
  ⟨'(' :: inner ++ [')'], by rw [eq_of_group? h, List.append_assoc, List.singleton_append]⟩

/-- The root signs of a group are those inside of it and those behind. -/
lemma count_of_group? {t inner behind : Text} (h : group? t = some (inner, behind)) :
    t.count rootSign = inner.count rootSign + behind.count rootSign := by
  rw [eq_of_group? h]
  simp [rootSign]

lemma count_split (before after : Text) :
    (before ++ rootSign :: after).count rootSign =
      before.count rootSign + after.count rootSign + 1 := by
  rw [List.count_append, List.count_cons_self]
  omega

/-- Looks for the first root sign of a text. -/
def firstRoot (t : Text) : FirstRoot t :=
  match ht : t.dropWhile (· ≠ rootSign) with
  | [] => .absent fun hmem => by
      have hall := List.dropWhile_eq_nil_iff.1 ht _ hmem
      simp at hall
  | _ :: after =>
    match hgroup : group? after with
    | none => .alone _ after (eq_of_dropWhile ht) (rootSign_not_mem_takeWhile t) hgroup
    | some (inner, behind) =>
      .grouped _ after inner behind (eq_of_dropWhile ht) (rootSign_not_mem_takeWhile t) hgroup

/-! ### Passes and stages -/

/-- The way over a text, with what has been written and what is left to go over. -/
structure Pass where
  /-- The text that is evaluated. -/
  text : Text
  /-- What has been written. -/
  written : Text
  /-- What is left of the canonical form. -/
  rest : Text
  /-- The rest is left of the text. -/
  isSuffix : rest <:+ canonical text

namespace Pass

/-- Begins with a text. -/
def start (t : Text) : Pass := ⟨t, [], canonical t, List.suffix_refl _⟩

/-- Writes `part`, with `rest` left to go over. -/
def goOn (p : Pass) (part rest : Text) (h : rest <:+ p.rest) : Pass :=
  ⟨p.text, p.written ++ part, rest, h.trans p.isSuffix⟩

@[simp]
lemma rest_start (t : Text) : (start t).rest = canonical t := rfl

@[simp]
lemma rest_goOn (p : Pass) (part rest : Text) (h : rest <:+ p.rest) :
    (p.goOn part rest h).rest = rest := rfl

/-- The value of the text, as far as it depends on what has been written and what is left. -/
def value (p : Pass) : Except EvaluationError Float :=
  (valueFrom p.written p.rest).mapError .invalid

/-- What becomes of the text when the group that the pass waits for has the outcome `r`. -/
def resume (r : Except EvaluationError Float) (p : Pass) : Except EvaluationError Float :=
  (r >>= fun x => valueFrom (p.written ++ Shortest.text x.sqrt) p.rest).mapError .invalid

/-- The pass `q` is `p` further on: `left` is left to go over, and that is shorter than before. -/
structure Advances (p q : Pass) (left : Text) : Prop where
  text : q.text = p.text
  rest : q.rest = left
  shorter : left.length < p.rest.length

end Pass

/-- How far an evaluation has come. -/
inductive Stage where
  /-- The pass `p` is under way. -/
  | passing (p : Pass) (waiting : List Pass)
  /-- A text has been evaluated, with the outcome `r`. -/
  | returning (r : Except EvaluationError Float) (waiting : List Pass)

namespace Stage

/-- Begins with a text. -/
def start (t : Text) : Stage := passing (.start t) []

/-- The stage behind the next root sign of the pass `p`, or at its end. -/
def round (p : Pass) (ps : List Pass) : Stage :=
  match firstRoot p.rest with
  | .absent _ => returning ((arithmetic (p.written ++ p.rest)).mapError .invalid) ps
  | .alone before after split _ _ =>
    passing (p.goOn (before ++ [rootSign]) after (suffix_of_split split)) ps
  | .grouped before _ inner behind split _ h =>
    passing (.start inner)
      (p.goOn before behind ((suffix_of_group? h).trans (suffix_of_split split)) :: ps)

/-- The next stage, or the outcome if there is nothing left to do. -/
def next : Stage → Stage ⊕ Except EvaluationError Float
  | passing p ps => .inl (round p ps)
  | returning (.ok x) (p :: ps) =>
    .inl (passing (p.goOn (Shortest.text x.sqrt) p.rest (List.suffix_refl _)) ps)
  | returning (.error e) (_ :: ps) => .inl (returning (.error e.invalid) ps)
  | returning r [] => .inr r

/-- The outcome after fewer than `n` steps, if there is one. -/
def run : Nat → Stage → Option (Except EvaluationError Float)
  | 0, _ => none
  | n + 1, s =>
    match s.next with
    | .inl s' => run n s'
    | .inr r => some r

/-! ### What a step preserves -/

/-- What evaluation makes of a stage. -/
def outcome : Stage → Except EvaluationError Float
  | passing p ps => ps.foldl Pass.resume p.value
  | returning r ps => ps.foldl Pass.resume r

end Stage

lemma valueFrom_of_not_mem {t : Text} (ht : rootSign ∉ t) (done : Text) :
    valueFrom done t = arithmetic (done ++ t) := by
  rw [valueFrom, expandRoots_eq_self ht]
  rfl

lemma valueFrom_append_of_not_mem {s : Text} (hs : rootSign ∉ s) (done t : Text) :
    valueFrom done (s ++ t) = valueFrom (done ++ s) t := by
  rw [valueFrom, expandRoots_append_of_not_mem hs]
  exact valueFrom_append done s t

lemma value_start (t : Text) : (Pass.start t).value = evaluate t := by
  rw [evaluate_eq]
  rfl

namespace Stage

lemma outcome_round (p : Pass) (ps : List Pass) :
    (round p ps).outcome = (passing p ps).outcome := by
  unfold round
  split
  · rename_i h _
    rw [outcome, outcome, Pass.value, valueFrom_of_not_mem h]
  · rename_i before after split first h _
    rw [outcome, outcome, Pass.value, Pass.value, split, valueFrom_append_of_not_mem first,
      valueFrom_root_of_none h, List.append_assoc]
    rfl
  · rename_i before after inner behind split first h _
    rw [outcome, outcome, value_start, Pass.value, split, valueFrom_append_of_not_mem first,
      valueFrom_root_of_some h]
    rfl

/-- **A step preserves the outcome.** -/
lemma outcome_next (s : Stage) : s.outcome = s.next.elim outcome id := by
  rcases s with ⟨p, ps⟩ | ⟨e | x, _ | ⟨p, ps⟩⟩
  case passing => exact (outcome_round p ps).symm
  all_goals rfl

/-! ### What a step takes away -/

/-- The steps that a waiting pass may still take, counted for each root sign that is left. -/
def waitingPotential (ps : List Pass) : Nat :=
  (ps.map fun p => 3 * p.rest.count rootSign + 2).sum

/-- A bound on the steps that are left. -/
def potential : Stage → Nat
  | passing p ps => 3 * p.rest.count rootSign + 1 + waitingPotential ps
  | returning _ ps => waitingPotential ps

lemma waitingPotential_cons (p : Pass) (ps : List Pass) :
    waitingPotential (p :: ps) = 3 * p.rest.count rootSign + 2 + waitingPotential ps :=
  rfl

lemma potential_round (p : Pass) (ps : List Pass) :
    (round p ps).potential < (passing p ps).potential := by
  unfold round
  split
  · rw [potential, potential]
    omega
  · rename_i before after split first _ _
    rw [potential, potential, split, count_split, Pass.rest_goOn]
    omega
  · rename_i before after inner behind split first h _
    rw [potential, potential, waitingPotential_cons, split, count_split, count_of_group? h,
      Pass.rest_goOn, Pass.rest_start, count_canonical_rootSign]
    omega

/-- **A step takes away potential.** -/
lemma potential_next {s s' : Stage} (h : s.next = .inl s') : s'.potential < s.potential := by
  rcases s with ⟨p, ps⟩ | ⟨e | x, _ | ⟨p, ps⟩⟩
  case passing =>
    obtain rfl := Sum.inl.inj h
    exact potential_round p ps
  case returning.error.nil => cases h
  case returning.ok.nil => cases h
  all_goals
    obtain rfl := Sum.inl.inj h
    rw [potential, potential, waitingPotential_cons]
  · omega
  · rw [Pass.rest_goOn]
    omega

/-- A run that is long enough ends with the outcome. -/
lemma run_of_potential {n : Nat} {s : Stage} (h : s.potential < n) : run n s = some s.outcome := by
  induction n generalizing s with
  | zero => exact absurd h (Nat.not_lt_zero _)
  | succ n ih =>
    rw [run, outcome_next]
    cases hnext : s.next with
    | inl s' =>
      have hless := potential_next hnext
      exact ih (by omega)
    | inr r => rfl

end Stage

/-! ### Rounds and calls -/

namespace Pass

/-- What a round of the pass `p` leads to, while the passes `ps` wait. -/
inductive Round (p : Pass) (ps : List Pass) : Stage → Prop
  /-- No root sign is left, and the text has been evaluated. -/
  | ends (h : rootSign ∉ p.rest) (r : Except EvaluationError Float) :
      Round p ps (.returning r ps)
  /-- The first root sign that is left has no group, and what stands behind it is left. -/
  | copies {before after : Text} {q : Pass} (split : p.rest = before ++ rootSign :: after)
      (first : rootSign ∉ before) (h : NoGroup after) (hq : p.Advances q after) :
      Round p ps (.passing q ps)
  /-- The first root sign that is left has a group.  The text inside of it is begun, and what stands
  behind it is left. -/
  | calls {before inner behind : Text} {q : Pass}
      (split : p.rest = before ++ rootSign :: ('(' :: inner ++ ')' :: behind))
      (first : rootSign ∉ before) (balanced : Balanced inner) (ne : inner ≠ [])
      (fewer : inner.count rootSign < p.text.count rootSign) (hq : p.Advances q behind) :
      Round p ps (.passing (.start inner) (q :: ps))

lemma count_rest_le (p : Pass) : p.rest.count rootSign ≤ p.text.count rootSign := by
  rw [← count_canonical_rootSign p.text]
  exact p.isSuffix.sublist.count_le rootSign

lemma round_round (p : Pass) (ps : List Pass) : Round p ps (Stage.round p ps) := by
  unfold Stage.round
  split
  · rename_i h _
    exact .ends h _
  · rename_i before after split first h _
    refine .copies split first (noGroup_of_group? h) ⟨rfl, rfl, ?_⟩
    rw [split, List.length_append, List.length_cons]
    omega
  · rename_i before after inner behind split first h _
    obtain ⟨hbalanced, hne⟩ := balanced_of_group? h
    have hrest : p.rest = before ++ rootSign :: ('(' :: inner ++ ')' :: behind) := by
      rw [split, eq_of_group? h]
    refine .calls hrest first hbalanced hne ?_ ⟨rfl, rfl, ?_⟩
    · have hcount := p.count_rest_le
      rw [split, count_split, count_of_group? h] at hcount
      omega
    · rw [hrest]
      simp only [List.length_append, List.length_cons]
      omega

end Pass

lemma canonical_replicate_power (n : Nat) :
    canonical (List.replicate n '^') = List.replicate (2 * n) '*' := by
  induction n with
  | zero => rfl
  | succ n ih =>
    rw [List.replicate_succ, canonical_cons, ih]
    rfl

lemma dropWhile_split {before : Text} (first : rootSign ∉ before) (after : Text) :
    (before ++ rootSign :: after).dropWhile (· ≠ rootSign) = rootSign :: after := by
  have hall : ∀ c ∈ before, decide (c ≠ rootSign) = true := by
    intro c hc
    exact decide_eq_true fun h => first (h ▸ hc)
  rw [List.dropWhile_append_of_pos hall]
  rfl

/-- What stands behind the first root sign is determined by the text. -/
lemma split_unique {before after before' after' : Text} (first : rootSign ∉ before)
    (first' : rootSign ∉ before')
    (h : before ++ rootSign :: after = before' ++ rootSign :: after') : after = after' := by
  have hdrop := congrArg (List.dropWhile (· ≠ rootSign)) h
  rw [dropWhile_split first, dropWhile_split first'] at hdrop
  exact (List.cons.inj hdrop).2

/-- The round that meets a root group begins with the text inside of it. -/
lemma round_of_group? {p : Pass} {before after inner behind : Text}
    (split : p.rest = before ++ rootSign :: after) (first : rootSign ∉ before)
    (hgroup : group? after = some (inner, behind)) (ps : List Pass) :
    ∃ q : Pass, Stage.round p ps = .passing (.start inner) (q :: ps) ∧ q.text = p.text := by
  unfold Stage.round
  split
  · rename_i habsent _
    exact absurd (by simp [split]) habsent
  · rename_i before' after' split' first' hnone _
    obtain rfl := split_unique first first' (split.symm.trans split')
    rw [hgroup] at hnone
    cases hnone
  · rename_i before' after' inner' behind' split' first' hsome _
    obtain rfl := split_unique first first' (split.symm.trans split')
    rw [hgroup] at hsome
    cases hsome
    exact ⟨_, rfl, rfl⟩

/-- **Evaluation ends on every text.**  An evaluation takes at most three steps for every root sign
of its text and two more, and has then come to the outcome.  A round of a pass ends it or leaves
less of the text to go over, also behind a root sign whose group is not there, not closed or empty;
and where it calls for the value of a group, the text inside of it has fewer root signs than the
text of the pass.  When the value has been found, the pass goes on with what was left; an error ends
it.  The length says nothing: the text inside of a group may be longer than the whole by any number
of characters, because it has canonical form. -/
theorem evaluate_terminates :
    (∀ (t : Text) (n : Nat), 3 * t.count rootSign + 1 < n →
      Stage.run n (.start t) = some (evaluate t)) ∧
    (∀ (p : Pass) (ps : List Pass), ∃ s, (Stage.passing p ps).next = .inl s ∧ p.Round ps s) ∧
    (∀ (x : Float) (p : Pass) (ps : List Pass), ∃ q : Pass,
      (Stage.returning (.ok x) (p :: ps)).next = .inl (.passing q ps) ∧
        q.text = p.text ∧ q.rest = p.rest) ∧
    (∀ (e : EvaluationError) (p : Pass) (ps : List Pass),
      (Stage.returning (.error e) (p :: ps)).next = .inl (.returning (.error e.invalid) ps)) ∧
    ∀ k : Nat, ∃ (t inner : Text) (q : Pass),
      (Stage.start t).next = .inl (.passing (.start inner) [q]) ∧ q.text = t ∧
        t.length + k < inner.length := by
  refine ⟨?_, ?_, ?_, fun _ _ _ => rfl, ?_⟩
  · intro t n hn
    have hpotential : (Stage.start t).potential < n := by
      rw [Stage.start, Stage.potential, Pass.rest_start, count_canonical_rootSign]
      exact hn
    rw [Stage.run_of_potential hpotential]
    exact congrArg some (value_start t)
  · exact fun p ps => ⟨_, rfl, p.round_round ps⟩
  · exact fun x p ps => ⟨_, rfl, rfl, rfl⟩
  · intro k
    -- each power sign becomes two stars
    let e : Text := List.replicate (k + 4) '^'
    have he : Balanced e := balanced_of_not_mem (by simp [e]) (by simp [e])
    have hgroup : group? ('(' :: canonical e ++ [')']) = some (canonical e, []) := by
      have h := group?_balanced he.canonical (by simp [e, canonical_replicate_power]) []
      rwa [List.append_nil] at h
    have hrest : (Pass.start (rootGroup e)).rest =
        [] ++ rootSign :: ('(' :: canonical e ++ [')']) := canonical_rootGroup e
    obtain ⟨q, hround, hq⟩ := round_of_group? hrest (by simp) hgroup []
    refine ⟨rootGroup e, canonical e, q, congrArg Sum.inl hround, hq, ?_⟩
    simp only [e, rootGroup, canonical_replicate_power, List.length_cons, List.length_append,
      List.length_replicate, List.length_nil]
    omega

/-- Roots without a group, without an end and around nothing, next to one inside of another. -/
theorem evaluate_terminates_on_malformed :
    3 * "√2+√(√(9)²)-√()×√(5".toList.count rootSign + 1 < 17 ∧
      Stage.run 17 (.start "√2+√(√(9)²)-√()×√(5".toList) =
        some (evaluate "√2+√(√(9)²)-√()×√(5".toList) :=
  ⟨by decide, evaluate_terminates.1 _ 17 (by decide)⟩

end Expression

end DeskCalculator
