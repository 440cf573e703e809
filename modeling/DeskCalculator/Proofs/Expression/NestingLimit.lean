import DeskCalculator.Proofs.Expression.Parsing
import Mathlib.Logic.Relation

/-!
# The limit of nesting

The machine that computes the value of a token list refuses to put a frame on its stack when 256
levels are open.  To see that this happens exactly where an expression is nested more deeply, and
that a level is given back when what opened it is complete, the machine is looked at point by point:
`Point.step` goes over one token or completes one frame, and the value at a point is what its steps
lead to (`Point.value_eq`).

The module is carried by what the machine makes of the tokens of a tree (`Handles`): from a stack
with room for the tree it gets to a point with the same stack, the operand in hand, and from a stack
without room it gets to the error.  No point on the way has more levels than the limit, because only
a push adds one (`nesting_le_of_reaches`).
-/

namespace DeskCalculator

/-- The levels of nesting that an operator opens for its right operand. -/
def Operator.levels (op : Operator) : Nat := if op = .raise then 1 else 0

namespace Expression

open Grammar

/-! ### The machine point by point -/

/-- Where the machine stands: its stack, the tokens that are left, and the operand that has been
read, if one has. -/
inductive Point where
  /-- An operand is wanted. -/
  | wanting (fs : List Frame) (ts : List Token)
  /-- The operand `x` has been read. -/
  | holding (x : Float) (fs : List Frame) (ts : List Token)

/-- Completes the first frame on the stack with the operand `x`, if it is a sign or an operator of
at least the given strength. -/
def complete? (strength : Nat) (x : Float) :
    List Frame → Option (Except EvaluationError (Float × List Frame))
  | .sign negative :: fs => some (.ok (if negative then -x else x, fs))
  | .pending op left :: fs =>
    if strength ≤ op.strength then some ((op.apply left x).map fun y => (y, fs)) else none
  | _ => none

namespace Point

/-- The stack at a point. -/
def frames : Point → List Frame
  | wanting fs _ => fs
  | holding _ fs _ => fs

/-- The value that is found from a point on. -/
def value : Point → Except EvaluationError Float
  | wanting fs ts => operandNext fs ts
  | holding x fs ts => operatorNext x fs ts

/-- Wants an operand with the frame `f` on the stack, unless that nests too deeply. -/
def enter (f : Frame) (fs : List Frame) (ts : List Token) :
    Except EvaluationError (Point ⊕ Float) :=
  (push f fs).map fun gs => .inl (wanting gs ts)

/-- Goes on when the operand `x` has been read and no frame can be completed with it. -/
def proceed (x : Float) : List Frame → List Token → Except EvaluationError (Point ⊕ Float)
  | fs, .operator op :: ts => enter (.pending op x) fs ts
  | .group :: fs, .closing :: ts => .ok (.inl (holding x fs ts))
  | .group :: _, _ => .error .unclosedGroup
  | _, _ => .ok (.inr x)

/-- The point that follows a point, or the value if there is nothing left to do. -/
def step : Point → Except EvaluationError (Point ⊕ Float)
  | wanting _ [] => .error .unexpectedEnd
  | wanting fs (.number digits :: ts) =>
    match Numeral.read? digits with
    | some x => .ok (.inl (holding x fs ts))
    | none => .error (.invalidNumber digits)
  | wanting fs (.opening :: ts) => enter .group fs ts
  | wanting fs (.operator .subtract :: ts) => enter (.sign true) fs ts
  | wanting fs (.operator .add :: ts) => enter (.sign false) fs ts
  | wanting _ (t :: _) => .error (.invalidNumber t.text)
  | holding x fs ts =>
    match complete? (demand ts) x fs with
    | some completed => completed.map fun (y, gs) => .inl (holding y gs ts)
    | none => proceed x fs ts

/-- What a step leads to. -/
def outcome : Point ⊕ Float → Except EvaluationError Float
  | .inl p => p.value
  | .inr x => .ok x

/-- The machine gets from one point to another. -/
def Reaches : Point → Point → Prop :=
  Relation.ReflTransGen fun p q => p.step = .ok (.inl q)

lemma complete?_of_settled {strength : Nat} {fs : List Frame} (h : Settled strength fs)
    (x : Float) : complete? strength x fs = none := by
  rcases fs with _ | ⟨_ | _ | _, fs⟩
  · rfl
  · rfl
  · exact h.elim
  · exact if_neg (Nat.not_le.2 h)

lemma settled_of_complete? {strength : Nat} {fs : List Frame} {x : Float}
    (h : complete? strength x fs = none) : Settled strength fs := by
  rcases fs with _ | ⟨_ | _ | ⟨op, left⟩, fs⟩
  · trivial
  · trivial
  · cases h
  · rw [complete?] at h
    split at h
    · cases h
    · exact Nat.not_le.1 ‹_›

/-- Completing a frame changes nothing about the value. -/
lemma operatorNext_of_complete? {x : Float} {fs : List Frame} {ts : List Token}
    {completed : Except EvaluationError (Float × List Frame)}
    (h : complete? (demand ts) x fs = some completed) :
    operatorNext x fs ts = completed >>= fun (y, gs) => operatorNext y gs ts := by
  rcases fs with _ | ⟨_ | negative | ⟨op, left⟩, fs⟩
  · cases h
  · cases h
  · obtain rfl := Option.some.inj h
    exact operatorNext_sign x negative fs ts
  · rw [complete?] at h
    split at h
    · obtain rfl := Option.some.inj h
      rw [operatorNext_pending ‹_›]
      cases op.apply left x <;> rfl
    · cases h

lemma bind_enter (f : Frame) (fs : List Frame) (ts : List Token) :
    enter f fs ts >>= outcome = push f fs >>= fun gs => operandNext gs ts := by
  rw [enter]
  cases push f fs <;> rfl

/-- **The value at a point is what its step leads to.** -/
lemma value_eq (p : Point) : p.value = p.step >>= outcome := by
  cases p with
  | wanting fs ts =>
    rcases ts with _ | ⟨digits | op | _ | _, ts⟩
    · rfl
    · rw [step, value, operandNext]
      cases Numeral.read? digits <;> rfl
    · cases op with
      | add => exact (bind_enter _ _ _).symm
      | subtract => exact (bind_enter _ _ _).symm
      | _ => rfl
    · exact (bind_enter _ _ _).symm
    · rfl
  | holding x fs ts =>
    rw [step, value]
    cases h : complete? (demand ts) x fs with
    | some completed =>
      rw [operatorNext_of_complete? h]
      rcases completed with e | ⟨y, gs⟩ <;> rfl
    | none =>
      have hs := settled_of_complete? h
      rcases ts with _ | ⟨digits | op | _ | _, ts⟩
      case cons.operator => exact (operatorNext_operator hs x ts).trans (bind_enter _ _ _).symm
      -- nothing but an operator leaves an operator that waits for its operand on the stack
      all_goals
        rcases fs with _ | ⟨_ | _ | _, fs⟩
        · rfl
        · rfl
        · exact hs.elim
        · exact absurd hs (Nat.not_lt_zero _)

lemma value_of_step {p q : Point} (h : p.step = .ok (.inl q)) : p.value = q.value := by
  rw [value_eq, h]
  rfl

lemma Reaches.value_eq {p q : Point} (h : Reaches p q) : p.value = q.value := by
  induction h with
  | refl => rfl
  | tail _ hstep ih => rw [ih, value_of_step hstep]

end Point

open Point

/-! ### Levels of nesting -/

lemma enter_eq_ok {f : Frame} {fs : List Frame} {ts : List Token} {q : Point}
    (h : enter f fs ts = .ok (.inl q)) (hfs : nesting fs ≤ nestingLimit) :
    q = .wanting (f :: fs) ts ∧ nesting (f :: fs) ≤ nestingLimit := by
  rw [enter] at h
  cases hpush : push f fs with
  | error e =>
    rw [hpush] at h
    cases h
  | ok gs =>
    obtain ⟨rfl, hle⟩ := push_eq_ok hpush hfs
    rw [hpush] at h
    exact ⟨(Sum.inl.inj (Except.ok.inj h)).symm, hle⟩

lemma enter_of_nesting_eq {f : Frame} (hf : f.nests = true) {fs : List Frame}
    (h : nestingLimit ≤ nesting fs) (ts : List Token) :
    enter f fs ts = .error (.tooDeep nestingLimit) := by
  rw [enter, push, if_pos]
  · rfl
  · simp [hf, h]

lemma enter_of_room {f : Frame} {fs : List Frame}
    (h : f.nests = true → nesting fs < nestingLimit) (ts : List Token) :
    enter f fs ts = .ok (.inl (.wanting (f :: fs) ts)) := by
  rw [enter]
  cases hf : f.nests with
  | true =>
    rw [push_of_lt (h hf)]
    rfl
  | false =>
    rw [push_of_not_nests hf]
    rfl

lemma nesting_le_cons (f : Frame) (fs : List Frame) : nesting fs ≤ nesting (f :: fs) := by
  cases hf : f.nests with
  | true =>
    rw [nesting_cons_of_nests hf]
    exact Nat.le_succ _
  | false => exact Nat.le_of_eq (nesting_cons_of_not_nests hf fs).symm

lemma nesting_pending (op : Operator) (x : Float) (fs : List Frame) :
    nesting (.pending op x :: fs) = nesting fs + op.levels := by
  by_cases hop : op = .raise
  · subst hop
    exact nesting_cons_of_nests rfl fs
  · rw [nesting_cons_of_not_nests (nests_pending hop x), Operator.levels, if_neg hop]
    rfl

/-- A completed frame is taken off the stack. -/
lemma nesting_le_of_complete? {strength : Nat} {x y : Float} {fs gs : List Frame}
    (h : complete? strength x fs = some (.ok (y, gs))) : nesting gs ≤ nesting fs := by
  rcases fs with _ | ⟨_ | negative | ⟨op, left⟩, fs⟩
  · cases h
  · cases h
  · obtain ⟨-, rfl⟩ := Prod.mk.inj (Except.ok.inj (Option.some.inj h))
    exact nesting_le_cons _ _
  · rw [complete?] at h
    split at h
    · cases hz : op.apply left x with
      | error e =>
        rw [hz] at h
        cases h
      | ok z =>
        rw [hz] at h
        obtain ⟨-, rfl⟩ := Prod.mk.inj (Except.ok.inj (Option.some.inj h))
        exact nesting_le_cons _ _
    · cases h

/-- One step does not exceed the limit. -/
lemma nesting_le_of_step {p q : Point} (h : p.step = .ok (.inl q))
    (hp : nesting p.frames ≤ nestingLimit) : nesting q.frames ≤ nestingLimit := by
  have henter : ∀ {f : Frame} {fs : List Frame} {ts : List Token}, nesting fs ≤ nestingLimit →
      enter f fs ts = .ok (.inl q) → nesting q.frames ≤ nestingLimit := by
    intro f fs ts hfs he
    obtain ⟨rfl, hle⟩ := enter_eq_ok he hfs
    exact hle
  cases p with
  | wanting fs ts =>
    rcases ts with _ | ⟨digits | op | _ | _, ts⟩
    · cases h
    · rw [step] at h
      cases hx : Numeral.read? digits with
      | none =>
        rw [hx] at h
        cases h
      | some x =>
        rw [hx] at h
        obtain rfl := Sum.inl.inj (Except.ok.inj h)
        exact hp
    · cases op with
      | add => exact henter hp h
      | subtract => exact henter hp h
      | _ => cases h
    · exact henter hp h
    · cases h
  | holding x fs ts =>
    rw [step] at h
    cases hc : complete? (demand ts) x fs with
    | some completed =>
      rw [hc] at h
      rcases completed with e | ⟨y, gs⟩
      · cases h
      · obtain rfl := Sum.inl.inj (Except.ok.inj h)
        exact Nat.le_trans (nesting_le_of_complete? hc) hp
    | none =>
      rw [hc] at h
      rcases ts with _ | ⟨digits | op | _ | _, ts⟩
      case cons.operator => exact henter hp h
      all_goals
        rcases fs with _ | ⟨_ | _ | _, fs⟩ <;> cases h
      exact Nat.le_trans (nesting_le_cons _ _) hp

/-- No run exceeds the limit. -/
lemma nesting_le_of_reaches {p q : Point} (h : Reaches p q)
    (hp : nesting p.frames ≤ nestingLimit) : nesting q.frames ≤ nestingLimit := by
  induction h with
  | refl => exact hp
  | tail _ hstep ih => exact nesting_le_of_step hstep ih

/-! ### Trees at the limit -/

/-- From the stack `fs`, which may have room for `levels` more or not, the machine gets over the
tokens `l` to the operand `x` and has the same stack again, or it fails because they nest too
deeply. -/
structure Handles (l : List Token) (x : Float) (levels : Nat) (fs : List Frame)
    (rest : List Token) : Prop where
  reaches : nesting fs + levels ≤ nestingLimit →
    Reaches (.wanting fs (l ++ rest)) (.holding x fs rest)
  tooDeep : nestingLimit < nesting fs + levels →
    (Point.wanting fs (l ++ rest)).value = .error (.tooDeep nestingLimit)

section

variable {fs : List Frame} {l r rest : List Token} {x y z : Float} {a b : Nat}

/-- A frame that nests is put in front of what is handled behind it, if there is room for one
more. -/
lemma Handles.enter {l' rest' : List Token} {p : Point} {f : Frame}
    (hp : p.step = enter f fs (l ++ rest')) (heq : p = .wanting fs (l' ++ rest))
    (hf : f.nests = true) (hfs : nesting fs ≤ nestingLimit)
    (h : nesting (f :: fs) ≤ nestingLimit → Handles l x a (f :: fs) rest')
    (hout : Reaches (.holding x (f :: fs) rest') (.holding y fs rest)) :
    Handles l' y (a + 1) fs rest := by
  have hcons := nesting_cons_of_nests hf fs
  subst heq
  by_cases hroom : nesting fs < nestingLimit
  · have hstep := hp.trans (enter_of_room (fun _ => hroom) _)
    have hin := h (by omega)
    constructor
    · intro hle
      exact .head hstep ((hin.reaches (by omega)).trans hout)
    · intro hlt
      rw [value_of_step hstep]
      exact hin.tooDeep (by omega)
  · constructor
    · intro hle
      omega
    · intro _
      rw [Point.value_eq, hp, enter_of_nesting_eq hf (Nat.not_lt.1 hroom)]
      rfl

/-- The step at an operator that finds nothing to complete. -/
lemma step_operator {op : Operator} (hs : Settled op.settles fs) (x : Float) (ts : List Token) :
    (Point.holding x fs (.operator op :: ts)).step = Point.enter (.pending op x) fs ts := by
  rw [step, show demand (.operator op :: ts) = op.settles from rfl, complete?_of_settled hs]
  cases fs <;> rfl

/-- The step at the end of a right operand. -/
lemma step_pending {op : Operator} (hd : demand rest ≤ op.strength)
    (hz : op.apply x y = .ok z) (fs : List Frame) :
    (Point.holding y (.pending op x :: fs) rest).step = .ok (.inl (.holding z fs rest)) := by
  rw [step, complete?, if_pos hd, hz]
  rfl

/-- Two operands with an operator between them.  A power opens a level for its right operand. -/
lemma handles_operator (op : Operator) (hz : op.apply x y = .ok z)
    (hl : Handles l x a fs (.operator op :: (r ++ rest)))
    (hr : nesting (.pending op x :: fs) ≤ nestingLimit → Handles r y b (.pending op x :: fs) rest)
    (hs : Settled op.settles fs) (hd : demand rest ≤ op.strength)
    (hfs : nesting fs ≤ nestingLimit) :
    Handles (l ++ .operator op :: r) z (max a (b + op.levels)) fs rest := by
  have hstep := step_operator hs x (r ++ rest)
  have hpending := nesting_pending op x fs
  have htokens : l ++ .operator op :: r ++ rest = l ++ .operator op :: (r ++ rest) := by
    rw [List.append_assoc, List.cons_append]
  constructor
  · intro hle
    have hroom : (Frame.pending op x).nests = true → nesting fs < nestingLimit := by
      intro hn
      rw [nesting_cons_of_nests hn] at hpending
      omega
    have hright := (hr (by omega)).reaches (by omega)
    rw [htokens]
    exact (hl.reaches (by omega)).trans
      (.head (hstep.trans (enter_of_room hroom _)) (hright.tail (step_pending hd hz fs)))
  · intro hlt
    rw [htokens]
    by_cases hdeep : nestingLimit < nesting fs + a
    · exact hl.tooDeep hdeep
    rw [(hl.reaches (Nat.not_lt.1 hdeep)).value_eq]
    by_cases hroom : nesting (.pending op x :: fs) ≤ nestingLimit
    · have hpush : (Frame.pending op x).nests = true → nesting fs < nestingLimit := by
        intro hn
        rwa [nesting_cons_of_nests hn] at hroom
      rw [value_of_step (hstep.trans (enter_of_room hpush _))]
      exact (hr hroom).tooDeep (by omega)
    · -- the power itself is one level too many
      cases hn : (Frame.pending op x).nests with
      | false =>
        rw [nesting_cons_of_not_nests hn] at hroom
        exact absurd hfs hroom
      | true =>
        rw [nesting_cons_of_nests hn] at hroom
        rw [Point.value_eq, hstep, enter_of_nesting_eq hn (by omega)]
        rfl

end

/-- A sum or a product as the operator is applied to the values of its operands. -/
lemma values_of_bind {u v : Except EvaluationError Float}
    {f : Float → Float → Except EvaluationError Float} {z : Float}
    (h : (u >>= fun x => v >>= fun y => f x y) = .ok z) :
    ∃ x y, u = .ok x ∧ v = .ok y ∧ f x y = .ok z := by
  obtain ⟨x, hx, h⟩ := bind_eq_ok h
  obtain ⟨y, hy, h⟩ := bind_eq_ok h
  exact ⟨x, y, hx, hy, h⟩

mutual

lemma handles_expr (e : Expr) {fs : List Frame} {rest : List Token} {x : Float}
    (hv : e.value = .ok x) (hs : Settled 1 fs) (hd : demand rest ≤ 1)
    (hfs : nesting fs ≤ nestingLimit) : Handles e.tokens x e.nesting fs rest := by
  cases e with
  | term t => exact handles_term t hv (hs.mono (by decide)) (by omega) hfs
  | add e t =>
    obtain ⟨x, y, hx, hy, hz⟩ := values_of_bind hv
    exact handles_operator .add hz (handles_expr e hx hs (Nat.le_refl _) hfs)
      (fun hn => handles_term t hy (settled_pending (by decide) x fs) (by omega) hn) hs hd hfs
  | subtract e t =>
    obtain ⟨x, y, hx, hy, hz⟩ := values_of_bind hv
    exact handles_operator .subtract hz (handles_expr e hx hs (Nat.le_refl _) hfs)
      (fun hn => handles_term t hy (settled_pending (by decide) x fs) (by omega) hn) hs hd hfs

lemma handles_term (t : Term) {fs : List Frame} {rest : List Token} {x : Float}
    (hv : t.value = .ok x) (hs : Settled 2 fs) (hd : demand rest ≤ 2)
    (hfs : nesting fs ≤ nestingLimit) : Handles t.tokens x t.nesting fs rest := by
  cases t with
  | power p => exact handles_power p hv (hs.mono (by decide)) (by omega) hfs
  | multiply t p =>
    obtain ⟨x, y, hx, hy, hz⟩ := values_of_bind hv
    exact handles_operator .multiply hz (handles_term t hx hs (Nat.le_refl _) hfs)
      (fun hn => handles_power p hy (settled_pending (by decide) x fs) (by omega) hn) hs hd hfs
  | divide t p =>
    obtain ⟨x, y, hx, hy, hz⟩ := values_of_bind hv
    exact handles_operator .divide hz (handles_term t hx hs (Nat.le_refl _) hfs)
      (fun hn => handles_power p hy (settled_pending (by decide) x fs) (by omega) hn) hs hd hfs

lemma handles_power (p : Power) {fs : List Frame} {rest : List Token} {x : Float}
    (hv : p.value = .ok x) (hs : Settled 4 fs) (hd : demand rest ≤ 3)
    (hfs : nesting fs ≤ nestingLimit) : Handles p.tokens x p.nesting fs rest := by
  cases p with
  | factor f => exact handles_factor f hv hfs
  | raise f p =>
    obtain ⟨x, y, hx, hy, hz⟩ := values_of_bind hv
    exact handles_operator .raise hz (handles_factor f hx hfs)
      (fun hn => handles_power p hy (settled_pending (by decide) x fs) hd hn) hs hd hfs

lemma handles_factor (f : Factor) {fs : List Frame} {rest : List Token} {x : Float}
    (hv : f.value = .ok x) (hfs : nesting fs ≤ nestingLimit) :
    Handles f.tokens x f.nesting fs rest := by
  cases f with
  | group e =>
    have htokens : (Factor.group e).tokens ++ rest =
        .opening :: (e.tokens ++ .closing :: rest) := by
      rw [Factor.tokens, List.cons_append, List.append_assoc, List.singleton_append]
    refine Handles.enter (p := .wanting fs (.opening :: (e.tokens ++ .closing :: rest))) rfl
      (by rw [htokens]) rfl hfs (fun hn => handles_expr e hv trivial (Nat.zero_le 1) hn)
      (.single rfl)
  | minus f =>
    obtain ⟨y, hy, heq⟩ := bind_eq_ok hv
    obtain rfl : -y = x := Except.ok.inj heq
    exact Handles.enter (p := .wanting fs (.operator .subtract :: (f.tokens ++ rest))) rfl rfl rfl
      hfs (fun hn => handles_factor f hy hn) (.single rfl)
  | plus f =>
    exact Handles.enter (p := .wanting fs (.operator .add :: (f.tokens ++ rest))) rfl rfl rfl
      hfs (fun hn => handles_factor f hv hn) (.single rfl)
  | number digits =>
    rw [Factor.value] at hv
    cases hx : Numeral.read? digits with
    | none =>
      rw [hx] at hv
      cases hv
    | some y =>
      rw [hx] at hv
      obtain rfl := Except.ok.inj hv
      constructor
      · intro _
        refine .single ?_
        rw [Factor.tokens, List.singleton_append, step, hx]
      · intro hlt
        exact absurd hlt (Nat.not_lt.2 hfs)

end

lemma value_of_handles {l rest : List Token} {x : Float} {levels : Nat}
    (h : Handles l x levels [] rest) (hr : EndsExpr rest) :
    value (l ++ rest) = if nestingLimit < levels then .error (.tooDeep nestingLimit) else .ok x := by
  have hnil : nesting [] + levels = levels := Nat.zero_add levels
  split
  · exact h.tooDeep (by omega)
  · have hreaches := h.reaches (by omega)
    exact hreaches.value_eq.trans (operatorNext_nil hr x)

end Expression

/-! ### Chains -/

namespace Grammar

/-- An expression with more terms joined to its end, each behind a minus or a plus. -/
def Expr.sum (e : Expr) (links : List (Bool × Term)) : Expr :=
  links.foldl (fun e (minus, t) => if minus then .subtract e t else .add e t) e

/-- A term with more powers joined to its end, each behind a `/` or a `*`. -/
def Term.product (t : Term) (links : List (Bool × Power)) : Term :=
  links.foldl (fun t (divided, p) => if divided then .divide t p else .multiply t p) t

lemma Expr.nesting_sum_le {n : Nat} {e : Expr} {links : List (Bool × Term)} (he : e.nesting ≤ n)
    (h : ∀ l ∈ links, l.2.nesting ≤ n) : (e.sum links).nesting ≤ n := by
  induction links generalizing e with
  | nil => exact he
  | cons l links ih =>
    obtain ⟨minus, t⟩ := l
    have ht : t.nesting ≤ n := h (minus, t) List.mem_cons_self
    refine ih ?_ fun l hl => h l (List.mem_cons_of_mem _ hl)
    cases minus <;> exact Nat.max_le.2 ⟨he, ht⟩

lemma Term.nesting_product_le {n : Nat} {t : Term} {links : List (Bool × Power)}
    (ht : t.nesting ≤ n) (h : ∀ l ∈ links, l.2.nesting ≤ n) : (t.product links).nesting ≤ n := by
  induction links generalizing t with
  | nil => exact ht
  | cons l links ih =>
    obtain ⟨divided, p⟩ := l
    have hp : p.nesting ≤ n := h (divided, p) List.mem_cons_self
    refine ih ?_ fun l hl => h l (List.mem_cons_of_mem _ hl)
    cases divided <;> exact Nat.max_le.2 ⟨ht, hp⟩

section

variable {α β : Type} {limit : Nat}

lemma bind_ne_tooDeep {u : Except EvaluationError α} {f : α → Except EvaluationError β}
    (hu : u ≠ .error (.tooDeep limit)) (hf : ∀ x, f x ≠ .error (.tooDeep limit)) :
    u >>= f ≠ .error (.tooDeep limit) := by
  cases u with
  | error e => exact fun h => hu (congrArg Except.error (Except.error.inj h))
  | ok x => exact hf x

lemma quotient_ne_tooDeep (x y : Float) : quotient x y ≠ .error (.tooDeep limit) := by
  unfold quotient
  split
  · nofun
  · nofun

end

/-! The value of a tree is computed without a stack, and so no tree is too deep for it. -/

mutual

lemma Expr.value_ne_tooDeep (limit : Nat) (e : Expr) : e.value ≠ .error (.tooDeep limit) := by
  cases e with
  | term t => exact t.value_ne_tooDeep limit
  | add e t =>
    exact bind_ne_tooDeep (e.value_ne_tooDeep limit) fun _ =>
      bind_ne_tooDeep (t.value_ne_tooDeep limit) nofun
  | subtract e t =>
    exact bind_ne_tooDeep (e.value_ne_tooDeep limit) fun _ =>
      bind_ne_tooDeep (t.value_ne_tooDeep limit) nofun

lemma Term.value_ne_tooDeep (limit : Nat) (t : Term) : t.value ≠ .error (.tooDeep limit) := by
  cases t with
  | power p => exact p.value_ne_tooDeep limit
  | multiply t p =>
    exact bind_ne_tooDeep (t.value_ne_tooDeep limit) fun _ =>
      bind_ne_tooDeep (p.value_ne_tooDeep limit) nofun
  | divide t p =>
    exact bind_ne_tooDeep (t.value_ne_tooDeep limit) fun _ =>
      bind_ne_tooDeep (p.value_ne_tooDeep limit) (quotient_ne_tooDeep _)

lemma Power.value_ne_tooDeep (limit : Nat) (p : Power) : p.value ≠ .error (.tooDeep limit) := by
  cases p with
  | factor f => exact f.value_ne_tooDeep limit
  | raise f p =>
    exact bind_ne_tooDeep (f.value_ne_tooDeep limit) fun _ =>
      bind_ne_tooDeep (p.value_ne_tooDeep limit) nofun

lemma Factor.value_ne_tooDeep (limit : Nat) (f : Factor) : f.value ≠ .error (.tooDeep limit) := by
  cases f with
  | group e => exact e.value_ne_tooDeep limit
  | minus f => exact bind_ne_tooDeep (f.value_ne_tooDeep limit) nofun
  | plus f => exact f.value_ne_tooDeep limit
  | number digits =>
    rw [Factor.value]
    cases Numeral.read? digits <;> nofun

end

end Grammar

namespace Expression

open Grammar Point

/-! ### The limit -/

/-- Trees that fit are never too deep, whatever else is wrong with them. -/
lemma value_ne_tooDeep {e : Expr} {rest : List Token} (he : e.nesting ≤ nestingLimit)
    (hr : EndsExpr rest) : value (e.tokens ++ rest) ≠ .error (.tooDeep nestingLimit) := by
  rw [value_tokens_append e he hr]
  exact e.value_ne_tooDeep _

/-- **The limit of nesting is exact.**  The tokens of an expression whose evaluation meets no error
are too deep if it is nested more than 256 levels deep, and have its value otherwise, whatever
follows that does not continue it.  Sums and products are never too deep because of their length.
Step by step, no point of a run has more than 256 levels on its stack; and on whatever stack an
expression, a term, a power or a factor is read, the machine stands at its end with the stack that
it had in front of it, unless levels are missing for it, in which case it is too deep. -/
theorem nesting_limit_exact :
    (∀ (e : Expr) (x : Float) (rest : List Token), e.value = .ok x → EndsExpr rest →
      value (e.tokens ++ rest) = if 256 < e.nesting then .error (.tooDeep 256) else .ok x) ∧
    (∀ (e : Expr) (links : List (Bool × Term)) (rest : List Token), e.nesting ≤ 256 →
      (∀ l ∈ links, l.2.nesting ≤ 256) → EndsExpr rest →
      value ((e.sum links).tokens ++ rest) ≠ .error (.tooDeep 256)) ∧
    (∀ (t : Term) (links : List (Bool × Power)) (rest : List Token), t.nesting ≤ 256 →
      (∀ l ∈ links, l.2.nesting ≤ 256) → EndsExpr rest →
      value ((t.product links).tokens ++ rest) ≠ .error (.tooDeep 256)) ∧
    (∀ p : Point, p.value = p.step >>= outcome) ∧
    (∀ (ts : List Token) (p : Point), Reaches (.wanting [] ts) p → nesting p.frames ≤ 256) ∧
    ∀ (fs : List Frame) (rest : List Token) (x : Float), nesting fs ≤ 256 →
      (∀ e : Expr, e.value = .ok x → Settled 1 fs → demand rest ≤ 1 →
        Handles e.tokens x e.nesting fs rest) ∧
      (∀ t : Term, t.value = .ok x → Settled 2 fs → demand rest ≤ 2 →
        Handles t.tokens x t.nesting fs rest) ∧
      (∀ p : Power, p.value = .ok x → Settled 4 fs → demand rest ≤ 3 →
        Handles p.tokens x p.nesting fs rest) ∧
      ∀ f : Factor, f.value = .ok x → Handles f.tokens x f.nesting fs rest := by
  refine ⟨?_, ?_, ?_, Point.value_eq, ?_, ?_⟩
  · intro e x rest hv hr
    have hd : demand rest ≤ 1 := by
      rw [demand_of_endsExpr hr]
      exact Nat.zero_le 1
    exact value_of_handles (handles_expr e hv trivial hd (Nat.zero_le _)) hr
  · intro e links rest he hlinks hr
    exact value_ne_tooDeep (Expr.nesting_sum_le he hlinks) hr
  · intro t links rest ht hlinks hr
    exact value_ne_tooDeep (e := .term (t.product links)) (Term.nesting_product_le ht hlinks) hr
  · intro ts p h
    exact nesting_le_of_reaches h (Nat.zero_le _)
  · intro fs rest x hfs
    exact ⟨fun e hv hs hd => handles_expr e hv hs hd hfs,
      fun t hv hs hd => handles_term t hv hs hd hfs,
      fun p hv hs hd => handles_power p hv hs hd hfs, fun f hv => handles_factor f hv hfs⟩

/-- With 256 signs a number has a value, and with one sign more it is too deep; three hundred
groups in a row are not; and a group ends on the stack that it starts on. -/
theorem nesting_limit_of_signs :
    let signed (n : Nat) : Expr := .term (.power (.factor (n.repeat Factor.plus (.number ['1']))))
    let group : Power := .factor (.group (signed 0))
    let row : Expr := (Expr.term (.power group)).sum (List.replicate 300 (true, .power group))
    value ((signed 257).tokens ++ [.closing]) = .error (.tooDeep 256) ∧
      value ((signed 256).tokens ++ [.closing]) = .ok 1 ∧
      value (row.tokens ++ []) ≠ .error (.tooDeep 256) ∧
      value ((Term.product (.power group) []).tokens ++ []) ≠ .error (.tooDeep 256) ∧
      nesting (Point.wanting [] row.tokens).frames ≤ 256 ∧
      Reaches (.wanting [.group] (group.tokens ++ [])) (.holding 1 [.group] []) := by
  intro signed group row
  obtain ⟨hexact, hsum, hproduct, -, hrun, hpart⟩ := nesting_limit_exact
  have hvalue : ∀ n, (signed n).value = .ok 1 := by
    intro n
    induction n with
    | zero =>
      have hread : Numeral.read? ['1'] = some 1 := by decide +kernel
      rw [← Option.some.inj hread]
      rfl
    | succ n ih => exact ih
  have hnesting : ∀ n, (signed n).nesting = n := by
    intro n
    induction n with
    | zero => rfl
    | succ n ih => exact congrArg Nat.succ ih
  refine ⟨?_, ?_, ?_, ?_, ?_, ?_⟩
  · rw [hexact (signed 257) 1 [.closing] (hvalue 257) trivial, hnesting]
    rfl
  · rw [hexact (signed 256) 1 [.closing] (hvalue 256) trivial, hnesting]
    rfl
  · refine hsum _ _ [] (by decide) ?_ trivial
    intro l hl
    rw [List.eq_of_mem_replicate hl]
    decide
  · exact hproduct _ [] [] (by decide) (by simp) trivial
  · exact hrun _ _ .refl
  · have hone : group.value = .ok 1 := hvalue 0
    obtain ⟨-, -, hpower, -⟩ := hpart [.group] [] 1 (by decide)
    exact (hpower group hone trivial (Nat.zero_le 3)).reaches (by decide)

end Expression

end DeskCalculator
