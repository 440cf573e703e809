import DeskCalculator.Proofs.Expression.Grammar
import Mathlib.Tactic.Lemma

/-!
# The value of a token list is that of its derivation tree

The machine that computes the value of a token list keeps a stack of frames, the grammar has
derivation trees.  The two meet in one statement, `Reads`: on a given stack, the machine goes
over the tokens of a tree and then stands where an operand with the value of the tree has been
read.  Every tree is read so if the stack lets no operator of the tree complete a frame of the
stack (`Settled`), if the tokens behind the tree belong to no operator that binds more
strongly (`demand`), and if there is room for its nesting.  Conversely a run that ends with a
number starts by reading a tree of each kind.
-/

namespace DeskCalculator

lemma Operator.settles_eq {op : Operator} (h : op ≠ .raise) : op.settles = op.strength := by
  cases op <;> first | rfl | contradiction

namespace Expression

open Grammar

/-! ### One step of the machine -/

/-- The strength from which the operators in front are completed when the tokens `ts` come
next. -/
def demand : List Token → Nat
  | .operator op :: _ => op.settles
  | _ => 0

/-- The frames at the top of the stack all wait for more than an operator that settles the
given strength. -/
def Settled (strength : Nat) : List Frame → Prop
  | .sign _ :: _ => False
  | .pending op _ :: _ => op.strength < strength
  | _ => True

lemma settle_of_settled {strength : Nat} {fs : List Frame} (h : Settled strength fs)
    (x : Float) : settle strength x fs = .ok (x, fs) := by
  cases fs with
  | nil => rfl
  | cons f fs =>
    cases f with
    | group => rfl
    | sign negative => exact h.elim
    | pending op left => rw [settle, if_neg (Nat.not_le.2 h)]

/-- A sign is applied to the operand that follows it, whatever comes next. -/
lemma operatorNext_sign (x : Float) (negative : Bool) (fs : List Frame) (ts : List Token) :
    operatorNext x (.sign negative :: fs) ts =
      operatorNext (if negative then -x else x) fs ts := by
  rcases ts with _ | ⟨_ | _ | _ | _, ts⟩ <;> rfl

/-- An operator is applied to its operands unless one that binds more strongly follows. -/
lemma operatorNext_pending {ts : List Token} {op : Operator} (h : demand ts ≤ op.strength)
    (x y : Float) (fs : List Frame) :
    operatorNext y (.pending op x :: fs) ts =
      op.apply x y >>= fun z => operatorNext z fs ts := by
  have hs : settle (demand ts) y (.pending op x :: fs) =
      op.apply x y >>= fun z => settle (demand ts) z fs := by
    rw [settle, if_pos h]
  rcases ts with _ | ⟨_ | op' | _ | _, ts⟩ <;>
    simp only [demand] at hs <;> simp only [operatorNext, hs, bind_assoc]

/-- An operator that completes nothing is put on the stack with its left operand. -/
lemma operatorNext_operator {op : Operator} {fs : List Frame} (h : Settled op.settles fs)
    (x : Float) (ts : List Token) :
    operatorNext x fs (.operator op :: ts) =
      push (.pending op x) fs >>= fun gs => operandNext gs ts := by
  rw [operatorNext, settle_of_settled h]
  rfl

/-- A group is closed by the parenthesis that follows its operand. -/
lemma operatorNext_closing (x : Float) (fs : List Frame) (ts : List Token) :
    operatorNext x (.group :: fs) (.closing :: ts) = operatorNext x fs ts := rfl

lemma push_of_lt {f : Frame} {fs : List Frame} (h : nesting fs < nestingLimit) :
    push f fs = .ok (f :: fs) := by
  rw [push, if_neg]
  simp only [Bool.and_eq_true, decide_eq_true_eq, not_and, Nat.not_le]
  exact fun _ => h

lemma push_of_not_nests {f : Frame} (hf : f.nests = false) (fs : List Frame) :
    push f fs = .ok (f :: fs) := by
  rw [push, hf]
  rfl

lemma nesting_cons_of_nests {f : Frame} (hf : f.nests = true) (fs : List Frame) :
    nesting (f :: fs) = nesting fs + 1 :=
  List.countP_cons_of_pos hf

lemma nesting_cons_of_not_nests {f : Frame} (hf : f.nests = false) (fs : List Frame) :
    nesting (f :: fs) = nesting fs :=
  List.countP_cons_of_neg (by simp [hf])

lemma nests_pending {op : Operator} (h : op ≠ .raise) (x : Float) :
    (Frame.pending op x).nests = false :=
  decide_eq_false h

lemma push_pending {op : Operator} {fs : List Frame}
    (h : op = .raise → nesting fs < nestingLimit) (x : Float) :
    push (.pending op x) fs = .ok (.pending op x :: fs) := by
  by_cases hop : op = .raise
  · exact push_of_lt (h hop)
  · exact push_of_not_nests (nests_pending hop x) fs

/-! ### Trees are read -/

/-- On the stack `fs` and before the tokens `rest`, the machine reads the tokens `l` as an
operand whose value, or failure, is `v`. -/
def Reads (l : List Token) (v : Except EvaluationError Float) (fs : List Frame)
    (rest : List Token) : Prop :=
  operandNext fs (l ++ rest) = v >>= fun x => operatorNext x fs rest

/-- Two operands with an operator between them are read if each operand is, if the operator
finds nothing to complete, and if nothing that binds more strongly follows. -/
lemma reads_operator (op : Operator) {l r rest : List Token} {fs : List Frame}
    {u v : Except EvaluationError Float}
    (hl : Reads l u fs (.operator op :: (r ++ rest)))
    (hr : ∀ x, Reads r v (.pending op x :: fs) rest)
    (hs : Settled op.settles fs) (hn : op = .raise → nesting fs < nestingLimit)
    (hd : demand rest ≤ op.strength) :
    Reads (l ++ .operator op :: r) (u >>= fun x => v >>= fun y => op.apply x y) fs rest := by
  rw [Reads, List.append_assoc, List.cons_append, hl]
  simp only [bind_assoc]
  congr 1
  funext x
  rw [operatorNext_operator hs, push_pending hn]
  calc operandNext (.pending op x :: fs) (r ++ rest)
      = v >>= fun y => operatorNext y (.pending op x :: fs) rest := hr x
    _ = v >>= fun y => op.apply x y >>= fun z => operatorNext z fs rest := by
      simp only [operatorNext_pending hd]

/-- An operator that is no power leaves as much room for each of its operands as there is. -/
lemma reads_joined (op : Operator) (hop : op ≠ .raise) {l r rest : List Token} {fs : List Frame}
    {u v : Except EvaluationError Float} {a b : Nat} (hn : nesting fs + max a b ≤ nestingLimit)
    (hl : nesting fs + a ≤ nestingLimit → Reads l u fs (.operator op :: (r ++ rest)))
    (hr : ∀ x, nesting (.pending op x :: fs) + b ≤ nestingLimit →
      Reads r v (.pending op x :: fs) rest)
    (hs : Settled op.settles fs) (hd : demand rest ≤ op.strength) :
    Reads (l ++ .operator op :: r) (u >>= fun x => v >>= fun y => op.apply x y) fs rest := by
  refine reads_operator op (hl (by omega)) (fun x => hr x ?_) hs (fun heq => absurd heq hop) hd
  rw [nesting_cons_of_not_nests (nests_pending hop x)]
  omega

lemma Settled.mono {s t : Nat} (h : s ≤ t) {fs : List Frame} (hs : Settled s fs) :
    Settled t fs := by
  rcases fs with _ | ⟨_ | _ | _, fs⟩
  · trivial
  · trivial
  · exact hs.elim
  · exact Nat.lt_of_lt_of_le hs h

lemma settled_pending {strength : Nat} {op : Operator} (h : op.strength < strength) (x : Float)
    (fs : List Frame) : Settled strength (.pending op x :: fs) := h

mutual

lemma reads_expr (e : Expr) {fs : List Frame} {rest : List Token} (hs : Settled 1 fs)
    (hd : demand rest ≤ 1) (hn : nesting fs + e.nesting ≤ nestingLimit) :
    Reads e.tokens e.value fs rest := by
  cases e with
  | term t => exact reads_term t (hs.mono (by decide)) (by omega) hn
  | add e t =>
    exact reads_joined .add nofun hn (fun h => reads_expr e hs (Nat.le_refl _) h)
      (fun x h => reads_term t (settled_pending (by decide) x fs) (by omega) h) hs hd
  | subtract e t =>
    exact reads_joined .subtract nofun hn (fun h => reads_expr e hs (Nat.le_refl _) h)
      (fun x h => reads_term t (settled_pending (by decide) x fs) (by omega) h) hs hd

lemma reads_term (t : Term) {fs : List Frame} {rest : List Token} (hs : Settled 2 fs)
    (hd : demand rest ≤ 2) (hn : nesting fs + t.nesting ≤ nestingLimit) :
    Reads t.tokens t.value fs rest := by
  cases t with
  | power p => exact reads_power p (hs.mono (by decide)) (by omega) hn
  | multiply t p =>
    exact reads_joined .multiply nofun hn (fun h => reads_term t hs (Nat.le_refl _) h)
      (fun x h => reads_power p (settled_pending (by decide) x fs) (by omega) h) hs hd
  | divide t p =>
    exact reads_joined .divide nofun hn (fun h => reads_term t hs (Nat.le_refl _) h)
      (fun x h => reads_power p (settled_pending (by decide) x fs) (by omega) h) hs hd

lemma reads_power (p : Power) {fs : List Frame} {rest : List Token} (hs : Settled 4 fs)
    (hd : demand rest ≤ 3) (hn : nesting fs + p.nesting ≤ nestingLimit) :
    Reads p.tokens p.value fs rest := by
  cases p with
  | factor f => exact reads_factor f hn
  | raise f p =>
    have hm : nesting fs + max f.nesting (p.nesting + 1) ≤ nestingLimit := hn
    refine reads_operator .raise (reads_factor f (by omega))
      (fun x => reads_power p (settled_pending (by decide) x fs) hd ?_) hs (fun _ => by omega) hd
    rw [nesting_cons_of_nests rfl]
    omega

lemma reads_factor (f : Factor) {fs : List Frame} {rest : List Token}
    (hn : nesting fs + f.nesting ≤ nestingLimit) : Reads f.tokens f.value fs rest := by
  cases f with
  | group e =>
    have hm : nesting fs + (e.nesting + 1) ≤ nestingLimit := hn
    have he : Reads e.tokens e.value (.group :: fs) (.closing :: rest) :=
      reads_expr e trivial (Nat.zero_le 1) (by rw [nesting_cons_of_nests rfl]; omega)
    rw [Reads, Factor.tokens, List.cons_append, List.append_assoc, List.singleton_append,
      operandNext, push_of_lt (by omega)]
    exact he
  | minus f =>
    have hm : nesting fs + (f.nesting + 1) ≤ nestingLimit := hn
    have hf : Reads f.tokens f.value (.sign true :: fs) rest :=
      reads_factor f (by rw [nesting_cons_of_nests rfl]; omega)
    rw [Reads, Factor.tokens, List.cons_append, operandNext, push_of_lt (by omega)]
    simp only [Factor.value, bind_assoc, pure_bind]
    exact hf.trans (by simp only [operatorNext_sign, if_true])
  | plus f =>
    have hm : nesting fs + (f.nesting + 1) ≤ nestingLimit := hn
    have hf : Reads f.tokens f.value (.sign false :: fs) rest :=
      reads_factor f (by rw [nesting_cons_of_nests rfl]; omega)
    rw [Reads, Factor.tokens, List.cons_append, operandNext, push_of_lt (by omega)]
    exact hf.trans (by simp only [operatorNext_sign, Factor.value]; rfl)
  | number digits =>
    rw [Reads, Factor.tokens, List.singleton_append, operandNext, Factor.value]
    cases Numeral.read? digits <;> rfl

end

/-! ### Runs read trees -/

lemma bind_eq_ok {α β : Type} {u : Except EvaluationError α}
    {f : α → Except EvaluationError β} {v : β} (h : u >>= f = .ok v) :
    ∃ x, u = .ok x ∧ f x = .ok v := by
  cases u with
  | error e => exact absurd h (by simp [bind, Except.bind])
  | ok x => exact ⟨x, rfl, h⟩

/-- What is pushed does not nest more deeply than the limit. -/
lemma push_eq_ok {f : Frame} {fs gs : List Frame} (h : push f fs = .ok gs)
    (hfs : nesting fs ≤ nestingLimit) : gs = f :: fs ∧ nesting gs ≤ nestingLimit := by
  rw [push] at h
  split at h
  · cases h
  · rename_i hn
    simp only [Bool.and_eq_true, decide_eq_true_eq, not_and, Nat.not_le] at hn
    obtain rfl := Except.ok.inj h
    refine ⟨rfl, ?_⟩
    cases hf : f.nests with
    | true =>
      rw [nesting_cons_of_nests hf]
      exact hn hf
    | false => rwa [nesting_cons_of_not_nests hf]

/-- A run over `ts` on the stack `fs`, which ends with `v`, starts by reading the tokens `l`
as an operand: its value `u` is the number `x`, its nesting `levels` fits on the stack, and
the run goes on with the tokens `rest`. -/
structure StartsWith (fs : List Frame) (ts : List Token) (v : Float) (l : List Token)
    (u : Except EvaluationError Float) (levels : Nat) (x : Float) (rest : List Token) : Prop where
  tokens_eq : ts = l ++ rest
  length_lt : rest.length < ts.length
  value_eq : u = .ok x
  nesting_le : nesting fs + levels ≤ nestingLimit
  continues : operatorNext x fs rest = .ok v

section

variable {fs : List Frame} {ts ts' l r rest : List Token} {v x y : Float}
  {u w : Except EvaluationError Float} {a b : Nat} {op : Operator}

/-- An operator behind the operand that a run starts with is put on the stack, and the run
goes on with the operand behind it. -/
lemma StartsWith.operandNext_eq (h : StartsWith fs ts v l u a x (.operator op :: ts'))
    (hs : Settled op.settles fs) :
    operandNext (.pending op x :: fs) ts' = .ok v ∧ ts'.length < ts.length ∧
      nesting (.pending op x :: fs) ≤ nestingLimit := by
  have hc := h.continues
  rw [operatorNext_operator hs] at hc
  obtain ⟨gs, hgs, hv⟩ := bind_eq_ok hc
  obtain ⟨rfl, hn⟩ := push_eq_ok hgs (Nat.le_of_add_right_le h.nesting_le)
  exact ⟨hv, Nat.lt_of_succ_lt h.length_lt, hn⟩

/-- Two operands with an operator between them make one operand, unless an operator that
binds more strongly follows. -/
lemma StartsWith.operator {k : Nat} (hl : StartsWith fs ts v l u a x (.operator op :: ts'))
    (hr : StartsWith (.pending op x :: fs) ts' v r w b y rest)
    (hk : nesting (.pending op x :: fs) = nesting fs + k) (hd : demand rest ≤ op.strength) :
    ∃ z, StartsWith fs ts v (l ++ .operator op :: r) (u >>= fun x => w >>= fun y => op.apply x y)
      (max a (b + k)) z rest := by
  have hc := hr.continues
  rw [operatorNext_pending hd] at hc
  obtain ⟨z, hz, hv⟩ := bind_eq_ok hc
  have hln := hl.nesting_le
  have hrn := hr.nesting_le
  have hlt := hl.length_lt
  have hrt := hr.length_lt
  rw [List.length_cons] at hlt
  refine ⟨z, ?_, by omega, ?_, by omega, hv⟩
  · rw [hl.tokens_eq, hr.tokens_eq, List.append_assoc, List.cons_append]
  · rw [hl.value_eq, hr.value_eq]
    exact hz

end

/-- Only the power operator demands more than products do. -/
lemma demand_le_two_or (ts : List Token) :
    demand ts ≤ 2 ∨ ∃ ts', ts = .operator .raise :: ts' := by
  rcases ts with _ | ⟨_ | op | _ | _, ts⟩
  case cons.operator =>
    cases op
    case raise => exact Or.inr ⟨ts, rfl⟩
    all_goals exact Or.inl (by simp [demand, Operator.settles, Operator.strength])
  all_goals exact Or.inl (Nat.zero_le 2)

lemma demand_le_one_or {ts : List Token} (h : demand ts ≤ 2) :
    demand ts ≤ 1 ∨ ∃ ts', ts = .operator .multiply :: ts' ∨ ts = .operator .divide :: ts' := by
  rcases ts with _ | ⟨_ | op | _ | _, ts⟩
  case cons.operator =>
    cases op
    case multiply => exact Or.inr ⟨ts, Or.inl rfl⟩
    case divide => exact Or.inr ⟨ts, Or.inr rfl⟩
    case raise => exact absurd h (show ¬4 ≤ 2 by decide)
    all_goals exact Or.inl (Nat.le_refl 1)
  all_goals exact Or.inl (Nat.zero_le 1)

lemma demand_eq_zero_or {ts : List Token} (h : demand ts ≤ 1) :
    EndsExpr ts ∨ ∃ ts', ts = .operator .add :: ts' ∨ ts = .operator .subtract :: ts' := by
  rcases ts with _ | ⟨_ | op | _ | _, ts⟩
  case cons.operator =>
    cases op
    case add => exact Or.inr ⟨ts, Or.inl rfl⟩
    case subtract => exact Or.inr ⟨ts, Or.inr rfl⟩
    all_goals exact absurd h (by simp [demand, Operator.settles, Operator.strength])
  all_goals exact Or.inl trivial

/-- Runs over fewer than `n` tokens start by reading a factor. -/
def FactorsBelow (n : Nat) : Prop :=
  ∀ (fs : List Frame) (ts : List Token) (v : Float), ts.length < n →
    nesting fs ≤ nestingLimit → operandNext fs ts = .ok v →
    ∃ (f : Factor) (x : Float) (rest : List Token),
      StartsWith fs ts v f.tokens f.value f.nesting x rest

section

variable {n : Nat} {fs : List Frame} {ts ts' l rest : List Token} {v x : Float}
  {u : Except EvaluationError Float} {a : Nat} {op : Operator}

lemma exists_power (hf : FactorsBelow n) (hn : ts.length < n) (hs : Settled 4 fs)
    (hfs : nesting fs ≤ nestingLimit) (h : operandNext fs ts = .ok v) :
    ∃ (p : Power) (x : Float) (rest : List Token),
      StartsWith fs ts v p.tokens p.value p.nesting x rest ∧ demand rest ≤ 2 := by
  -- an exponent is read as a power of its own, from the tokens behind the operator
  induction hm : ts.length using Nat.strongRecOn generalizing ts fs with
  | _ m ih =>
    obtain ⟨f, x, rest, hr⟩ := hf fs ts v hn hfs h
    rcases demand_le_two_or rest with hd | ⟨ts', rfl⟩
    · exact ⟨.factor f, x, rest, hr, hd⟩
    · obtain ⟨hc, hlt, hfs⟩ := hr.operandNext_eq hs
      obtain ⟨p, y, rest', hp, hd'⟩ :=
        ih ts'.length (by omega) (by omega) (settled_pending (by decide) x fs) hfs hc rfl
      obtain ⟨z, hz⟩ :=
        hr.operator hp (nesting_cons_of_nests rfl fs) (Nat.le_succ_of_le hd')
      exact ⟨.raise f p, z, rest', hz, hd'⟩

/-- A product or a quotient is read if its left operand is. -/
lemma StartsWith.operator_power (h : StartsWith fs ts v l u a x (.operator op :: ts'))
    (hf : FactorsBelow n) (hn : ts.length ≤ n) (hs : Settled 2 fs) (hop : op.strength = 2) :
    ∃ (p : Power) (z : Float) (rest : List Token),
      StartsWith fs ts v (l ++ .operator op :: p.tokens)
        (u >>= fun x => p.value >>= fun y => op.apply x y) (max a p.nesting) z rest ∧
      demand rest ≤ 2 ∧ rest.length < ts'.length := by
  have hraise : op ≠ .raise := fun heq => absurd (heq ▸ hop) (by decide)
  have hsettles : op.settles = 2 := (Operator.settles_eq hraise).trans hop
  obtain ⟨hc, hlt, hfs⟩ := h.operandNext_eq (hsettles ▸ hs)
  obtain ⟨p, y, rest, hp, hd⟩ :=
    exists_power hf (by omega) (settled_pending (by omega) x fs) hfs hc
  obtain ⟨z, hz⟩ := h.operator (k := 0) hp
    (nesting_cons_of_not_nests (nests_pending hraise x) fs) (by omega)
  exact ⟨p, z, rest, hz, hd, hp.length_lt⟩

/-- A term that a run starts with can be continued until no factor follows it. -/
lemma exists_longest_term (hf : FactorsBelow n) (hn : ts.length ≤ n) (hs : Settled 2 fs)
    {t : Term} (h : StartsWith fs ts v t.tokens t.value t.nesting x rest)
    (hd : demand rest ≤ 2) :
    ∃ (t : Term) (x : Float) (rest : List Token),
      StartsWith fs ts v t.tokens t.value t.nesting x rest ∧ demand rest ≤ 1 := by
  induction hm : rest.length using Nat.strongRecOn generalizing t x rest with
  | _ m ih =>
    rcases demand_le_one_or hd with hd | ⟨ts', rfl | rfl⟩
    · exact ⟨t, x, rest, h, hd⟩
    · obtain ⟨p, z, rest', hz, hd', hlt⟩ := h.operator_power hf hn hs rfl
      rw [List.length_cons] at hm
      exact ih rest'.length (by omega) (t := .multiply t p) hz hd' rfl
    · obtain ⟨p, z, rest', hz, hd', hlt⟩ := h.operator_power hf hn hs rfl
      rw [List.length_cons] at hm
      exact ih rest'.length (by omega) (t := .divide t p) hz hd' rfl

lemma exists_term (hf : FactorsBelow n) (hn : ts.length < n) (hs : Settled 2 fs)
    (hfs : nesting fs ≤ nestingLimit) (h : operandNext fs ts = .ok v) :
    ∃ (t : Term) (x : Float) (rest : List Token),
      StartsWith fs ts v t.tokens t.value t.nesting x rest ∧ demand rest ≤ 1 := by
  obtain ⟨p, x, rest, hp, hd⟩ := exists_power hf hn (hs.mono (by decide)) hfs h
  exact exists_longest_term hf (Nat.le_of_lt hn) hs (t := .power p) hp hd

/-- A sum or a difference is read if its left operand is. -/
lemma StartsWith.operator_term (h : StartsWith fs ts v l u a x (.operator op :: ts'))
    (hf : FactorsBelow n) (hn : ts.length ≤ n) (hs : Settled 1 fs) (hop : op.strength = 1) :
    ∃ (t : Term) (z : Float) (rest : List Token),
      StartsWith fs ts v (l ++ .operator op :: t.tokens)
        (u >>= fun x => t.value >>= fun y => op.apply x y) (max a t.nesting) z rest ∧
      demand rest ≤ 1 ∧ rest.length < ts'.length := by
  have hraise : op ≠ .raise := fun heq => absurd (heq ▸ hop) (by decide)
  have hsettles : op.settles = 1 := (Operator.settles_eq hraise).trans hop
  obtain ⟨hc, hlt, hfs⟩ := h.operandNext_eq (hsettles ▸ hs)
  obtain ⟨t, y, rest, ht, hd⟩ :=
    exists_term hf (by omega) (settled_pending (by omega) x fs) hfs hc
  obtain ⟨z, hz⟩ := h.operator (k := 0) ht
    (nesting_cons_of_not_nests (nests_pending hraise x) fs) (by omega)
  exact ⟨t, z, rest, hz, hd, ht.length_lt⟩

/-- An expression that a run starts with can be continued until no term follows it. -/
lemma exists_longest_expr (hf : FactorsBelow n) (hn : ts.length ≤ n) (hs : Settled 1 fs)
    {e : Expr} (h : StartsWith fs ts v e.tokens e.value e.nesting x rest)
    (hd : demand rest ≤ 1) :
    ∃ (e : Expr) (x : Float) (rest : List Token),
      StartsWith fs ts v e.tokens e.value e.nesting x rest ∧ EndsExpr rest := by
  induction hm : rest.length using Nat.strongRecOn generalizing e x rest with
  | _ m ih =>
    rcases demand_eq_zero_or hd with hd | ⟨ts', rfl | rfl⟩
    · exact ⟨e, x, rest, h, hd⟩
    · obtain ⟨t, z, rest', hz, hd', hlt⟩ := h.operator_term hf hn hs rfl
      rw [List.length_cons] at hm
      exact ih rest'.length (by omega) (e := .add e t) hz hd' rfl
    · obtain ⟨t, z, rest', hz, hd', hlt⟩ := h.operator_term hf hn hs rfl
      rw [List.length_cons] at hm
      exact ih rest'.length (by omega) (e := .subtract e t) hz hd' rfl

lemma exists_expr (hf : FactorsBelow n) (hn : ts.length < n) (hs : Settled 1 fs)
    (hfs : nesting fs ≤ nestingLimit) (h : operandNext fs ts = .ok v) :
    ∃ (e : Expr) (x : Float) (rest : List Token),
      StartsWith fs ts v e.tokens e.value e.nesting x rest ∧ EndsExpr rest := by
  obtain ⟨t, x, rest, ht, hd⟩ := exists_term hf hn (hs.mono (by decide)) hfs h
  exact exists_longest_expr hf (Nat.le_of_lt hn) hs (e := .term t) ht hd

/-- Behind a sign, a run goes on with a factor that the sign is applied to. -/
lemma exists_signed (hf : FactorsBelow n) (hn : ts.length < n) (hfs : nesting fs ≤ nestingLimit)
    {negative : Bool} (h : (push (.sign negative) fs >>= fun gs => operandNext gs ts) = .ok v) :
    ∃ (f : Factor) (x : Float) (rest : List Token),
      ts = f.tokens ++ rest ∧ rest.length < ts.length ∧ f.value = .ok x ∧
      nesting fs + (f.nesting + 1) ≤ nestingLimit ∧
      operatorNext (if negative then -x else x) fs rest = .ok v := by
  obtain ⟨gs, hgs, hc⟩ := bind_eq_ok h
  obtain ⟨rfl, hfs'⟩ := push_eq_ok hgs hfs
  obtain ⟨f, x, rest, hr⟩ := hf _ ts v hn hfs' hc
  have hnest := hr.nesting_le
  rw [nesting_cons_of_nests rfl] at hnest
  have hcont := hr.continues
  rw [operatorNext_sign] at hcont
  exact ⟨f, x, rest, hr.tokens_eq, hr.length_lt, hr.value_eq, by omega, hcont⟩

/-- Behind an opening parenthesis, a run goes on with an expression that ends at the
parenthesis which closes it. -/
lemma exists_group (hf : FactorsBelow n) (hn : ts.length < n) (hfs : nesting fs ≤ nestingLimit)
    (h : (push .group fs >>= fun gs => operandNext gs ts) = .ok v) :
    ∃ (e : Expr) (x : Float) (rest : List Token),
      StartsWith fs (.opening :: ts) v (Factor.group e).tokens (Factor.group e).value
        (Factor.group e).nesting x rest := by
  obtain ⟨gs, hgs, hc⟩ := bind_eq_ok h
  obtain ⟨rfl, hfs'⟩ := push_eq_ok hgs hfs
  have hs : Settled 1 (.group :: fs) := trivial
  obtain ⟨e, x, rest, he, hend⟩ := exists_expr hf hn hs hfs' hc
  have hcont := he.continues
  have hlt := he.length_lt
  have hnest := he.nesting_le
  rw [nesting_cons_of_nests rfl] at hnest
  rcases rest with _ | ⟨_ | _ | _ | _, rest⟩
  -- an open group fails at everything but a parenthesis that closes it
  · cases hcont
  · cases hcont
  · exact hend.elim
  · cases hcont
  · rw [List.length_cons] at hlt
    rw [operatorNext_closing] at hcont
    refine ⟨e, x, rest, ?_, ?_, he.value_eq, ?_, hcont⟩
    · rw [he.tokens_eq, Factor.tokens, List.cons_append, List.append_assoc,
        List.singleton_append]
    · rw [List.length_cons]
      omega
    · rw [Factor.nesting]
      omega

end

/-- Every run that ends with a number starts by reading a factor. -/
lemma factorsBelow (n : Nat) : FactorsBelow n := by
  -- what stands behind a sign or a parenthesis is a shorter run
  induction n with
  | zero => exact fun fs ts v hn _ _ => absurd hn (Nat.not_lt_zero _)
  | succ n ih =>
    intro fs ts v hn hfs h
    rcases ts with _ | ⟨digits | op | _ | _, ts⟩
    · cases h
    · rw [operandNext] at h
      cases hx : Numeral.read? digits with
      | none =>
        rw [hx] at h
        cases h
      | some x =>
        rw [hx] at h
        exact ⟨.number digits, x, ts, rfl, Nat.lt_succ_self _, by rw [Factor.value, hx], hfs, h⟩
    · have hn' : ts.length < n := Nat.lt_of_succ_lt_succ hn
      cases op with
      | subtract =>
        obtain ⟨f, x, rest, ht, hlt, hx, hnest, hc⟩ := exists_signed ih hn' hfs h
        exact ⟨.minus f, -x, rest, by rw [ht]; rfl, Nat.lt_succ_of_lt hlt,
          by rw [Factor.value, hx]; rfl, hnest, hc⟩
      | add =>
        obtain ⟨f, x, rest, ht, hlt, hx, hnest, hc⟩ := exists_signed ih hn' hfs h
        exact ⟨.plus f, x, rest, by rw [ht]; rfl, Nat.lt_succ_of_lt hlt, hx, hnest, hc⟩
      | multiply => cases h
      | divide => cases h
      | raise => cases h
    · obtain ⟨e, x, rest, he⟩ := exists_group ih (Nat.lt_of_succ_lt_succ hn) hfs h
      exact ⟨.group e, x, rest, he⟩
    · cases h

/-! ### The value of a token list -/

/-- Where no group is open, an operand that no operator follows is the value. -/
lemma operatorNext_nil {ts : List Token} (h : EndsExpr ts) (x : Float) :
    operatorNext x [] ts = .ok x := by
  rcases ts with _ | ⟨_ | _ | _ | _, ts⟩
  case cons.operator => exact h.elim
  all_goals rfl

lemma demand_of_endsExpr {ts : List Token} (h : EndsExpr ts) : demand ts = 0 := by
  rcases ts with _ | ⟨_ | _ | _ | _, ts⟩
  case cons.operator => exact h.elim
  all_goals rfl

/-- The tokens of an expression that is not nested too deeply have its value, whatever
follows that does not continue it. -/
lemma value_tokens_append (e : Expr) {rest : List Token} (hn : e.nesting ≤ nestingLimit)
    (hr : EndsExpr rest) : value (e.tokens ++ rest) = e.value := by
  have h : Reads e.tokens e.value [] rest :=
    reads_expr e trivial (by rw [demand_of_endsExpr hr]; exact Nat.zero_le 1)
      (by rwa [nesting, List.countP_nil, Nat.zero_add])
  calc value (e.tokens ++ rest)
      = e.value >>= fun x => operatorNext x [] rest := h
    _ = e.value >>= fun x => .ok x := by simp only [operatorNext_nil hr]
    _ = e.value := bind_pure e.value

/-- Tokens that have a value start with those of an expression that has it. -/
lemma exists_expr_of_value {ts : List Token} {x : Float} (h : value ts = .ok x) :
    ∃ (e : Expr) (rest : List Token), e.nesting ≤ nestingLimit ∧ EndsExpr rest ∧
      ts = e.tokens ++ rest ∧ e.value = .ok x := by
  obtain ⟨e, y, rest, he, hend⟩ :=
    exists_expr (factorsBelow (ts.length + 1)) (Nat.lt_succ_self _)
      (show Settled 1 [] from trivial) (Nat.zero_le _) h
  have hc := he.continues
  rw [operatorNext_nil hend] at hc
  obtain rfl := Except.ok.inj hc
  have hn := he.nesting_le
  rw [nesting, List.countP_nil, Nat.zero_add] at hn
  exact ⟨e, rest, hn, hend, he.tokens_eq, he.value_eq⟩

/-- **The machine evaluates exactly the grammar.**  The tokens of an expression that is nested
at most 256 levels deep have the value of the expression, or fail as it does, whatever follows
that does not continue it; and tokens that have a value start with those of such an
expression. -/
theorem value_agrees_with_grammar :
    (∀ (e : Expr) (rest : List Token), e.nesting ≤ 256 → EndsExpr rest →
      value (e.tokens ++ rest) = e.value) ∧
    ∀ (ts : List Token) (x : Float), value ts = .ok x →
      ∃ (e : Expr) (rest : List Token), e.nesting ≤ 256 ∧ EndsExpr rest ∧
        ts = e.tokens ++ rest ∧ e.value = .ok x :=
  ⟨fun e _ hn hr => value_tokens_append e hn hr, fun _ _ h => exists_expr_of_value h⟩

/-- The first failure from left to right is that of the division, which comes before the
malformed number; and `1` in front of a closing parenthesis can only have been read as an
expression. -/
theorem value_before_closing :
    value ([.number ['1'], .operator .divide, .number ['0'], .operator .add,
        .number "1.2.3".toList] ++ [.closing]) = .error .divisionByZero ∧
    ∃ (e : Expr) (rest : List Token), e.nesting ≤ 256 ∧ EndsExpr rest ∧
      [.number ['1'], .closing] = e.tokens ++ rest ∧ e.value = .ok (Decimal.value ⟨1, 0⟩) :=
  ⟨(value_agrees_with_grammar.1
      (.add (.term (.divide (.power (.factor (.number ['1']))) (.factor (.number ['0']))))
        (.power (.factor (.number "1.2.3".toList)))) [.closing] (by decide) trivial).trans rfl,
    value_agrees_with_grammar.2 [.number ['1'], .closing] (Decimal.value ⟨1, 0⟩) rfl⟩

end Expression

end DeskCalculator
