import DeskCalculator.Proofs.Expression.Parsing

/-!
# What a counter can decide

To find out whether a token list has a value, and which token is at fault if it has none, no stack
is needed.  A scanner that knows whether an operand is wanted or has just been read, and how many
groups are open, stops at the same token as the machine and for the same reason
(`value_agrees_with_scanner`).  Only two errors are beyond it, because they depend on the numbers
and on the depth of the stack: the division by zero and the limit of nesting.

The scanner follows the machine step by step; the number of groups on the stack is its counter.
The work of the machine between two tokens, to complete frames and to put new ones on the stack,
either fails with one of the two errors or leaves the open groups as they are (`settle_cases`,
`push_cases`).
-/

namespace DeskCalculator

namespace Expression

/-! ### The scanner -/

/-- What a scanner knows of the tokens it has gone over. -/
inductive Scanner where
  /-- An operand is wanted, and so many groups are open. -/
  | wanting (opened : Nat)
  /-- An operand has been read, and so many groups are open. -/
  | holding (opened : Nat)
deriving DecidableEq, Repr

namespace Scanner

/-- What a scanner decides: that there is a value, or what is wrong. -/
abbrev Verdict := Except EvaluationError Unit

/-- A scanner goes over one token, or it stops there. -/
def step : Scanner → Token → Scanner ⊕ Verdict
  | wanting k, .opening => .inl (wanting (k + 1))
  | wanting k, .operator .add => .inl (wanting k)
  | wanting k, .operator .subtract => .inl (wanting k)
  | wanting k, .number digits =>
    if (Numeral.read? digits).isSome then .inl (holding k)
    else .inr (.error (.invalidNumber digits))
  | wanting _, t => .inr (.error (.invalidNumber t.text))
  | holding k, .operator _ => .inl (wanting k)
  | holding (k + 1), .closing => .inl (holding k)
  | holding 0, _ => .inr (.ok ())
  | holding (_ + 1), _ => .inr (.error .unclosedGroup)

/-- What a scanner decides where the tokens end. -/
def stop : Scanner → Verdict
  | wanting _ => .error .unexpectedEnd
  | holding 0 => .ok ()
  | holding (_ + 1) => .error .unclosedGroup

/-- What a scanner decides about a token list. -/
def run (s : Scanner) : List Token → Verdict
  | [] => s.stop
  | t :: ts =>
    match s.step t with
    | .inl s' => s'.run ts
    | .inr v => v

lemma step_number_of_some {digits : Text} {x : Float} (h : Numeral.read? digits = some x)
    (k : Nat) : (wanting k).step (.number digits) = .inl (holding k) := by
  simp [step, h]

lemma step_number_of_none {digits : Text} (h : Numeral.read? digits = none) (k : Nat) :
    (wanting k).step (.number digits) = .inr (.error (.invalidNumber digits)) := by
  simp [step, h]

lemma step_operator (k : Nat) (op : Operator) :
    (holding k).step (.operator op) = .inl (wanting k) := by
  cases k <;> rfl

lemma run_of_inl {s s' : Scanner} {t : Token} (h : s.step t = .inl s') (ts : List Token) :
    s.run (t :: ts) = s'.run ts := by
  simp [run, h]

lemma run_of_inr {s : Scanner} {t : Token} {v : Verdict} (h : s.step t = .inr v)
    (ts : List Token) : s.run (t :: ts) = v := by
  simp [run, h]

lemma step_not_invalid {s : Scanner} {t : Token} {e : EvaluationError}
    (h : s.step t = .inr (.error e)) : e.isInvalidExpression = false := by
  unfold step at h
  split at h
  case h_4 =>
    split at h
    · cases h
    · cases h
      rfl
  all_goals cases h
  all_goals rfl

/-- No verdict is that an expression is invalid because of another error. -/
lemma run_not_invalid {s : Scanner} {ts : List Token} {e : EvaluationError}
    (h : s.run ts = .error e) : e.isInvalidExpression = false := by
  induction ts generalizing s with
  | nil =>
    unfold run stop at h
    split at h <;> cases h <;> rfl
  | cons t ts ih =>
    rcases hstep : s.step t with s' | v
    · rw [run_of_inl hstep] at h
      exact ih h
    · rw [run_of_inr hstep] at h
      exact step_not_invalid (h ▸ hstep)

end Scanner

/-! ### The groups on the stack -/

/-- The number of groups on a stack. -/
def openGroups : List Frame → Nat
  | [] => 0
  | .group :: fs => openGroups fs + 1
  | _ :: fs => openGroups fs

@[simp] lemma openGroups_pending (op : Operator) (x : Float) (fs : List Frame) :
    openGroups (.pending op x :: fs) = openGroups fs := rfl

lemma push_cases (f : Frame) (fs : List Frame) :
    push f fs = .error (.tooDeep nestingLimit) ∨ push f fs = .ok (f :: fs) := by
  unfold push
  split
  · exact Or.inl rfl
  · exact Or.inr rfl

lemma apply_cases (op : Operator) (x y : Float) :
    op.apply x y = .error .divisionByZero ∨ ∃ z, op.apply x y = .ok z := by
  cases op with
  | divide =>
    rw [Operator.apply]
    split
    · exact Or.inl rfl
    · exact Or.inr ⟨_, rfl⟩
  | _ => exact Or.inr ⟨_, rfl⟩

/-- Completing frames fails at a division by zero, or it leaves the open groups as they are.  When
all frames are completed that can be, the stack is empty or a group comes first. -/
lemma settle_cases (strength : Nat) (x : Float) (fs : List Frame) :
    settle strength x fs = .error .divisionByZero ∨
      ∃ y gs, settle strength x fs = .ok (y, gs) ∧ openGroups gs = openGroups fs ∧
        (strength = 0 → gs = [] ∨ ∃ hs, gs = .group :: hs) := by
  induction fs generalizing x with
  | nil => exact Or.inr ⟨x, [], rfl, rfl, fun _ => Or.inl rfl⟩
  | cons f fs ih =>
    cases f with
    | group => exact Or.inr ⟨x, .group :: fs, rfl, rfl, fun _ => Or.inr ⟨fs, rfl⟩⟩
    | sign negative => exact ih _
    | pending op left =>
      rw [settle]
      by_cases hop : strength ≤ op.strength
      · rw [if_pos hop]
        rcases apply_cases op left x with hz | ⟨z, hz⟩
        · rw [hz]
          exact Or.inl rfl
        · rw [hz]
          exact ih z
      · rw [if_neg hop]
        refine Or.inr ⟨x, _, rfl, rfl, fun hzero => absurd (Nat.zero_le op.strength) ?_⟩
        rwa [← hzero]

/-! ### The machine and the scanner -/

/-- The machine ends as the scanner decides, unless it ends with an error that the scanner does not
know. -/
def Agrees (u : Except EvaluationError Float) (v : Scanner.Verdict) : Prop :=
  u = .error .divisionByZero ∨ u = .error (.tooDeep nestingLimit) ∨ u.map (fun _ => ()) = v

lemma agrees_error (e : EvaluationError) : Agrees (.error e) (.error e) :=
  Or.inr (Or.inr rfl)

lemma agrees_ok (x : Float) : Agrees (.ok x) (.ok ()) :=
  Or.inr (Or.inr rfl)

section

variable {fs : List Frame} {ts : List Token} {v : Scanner.Verdict}

/-- What follows a frame that is put on the stack. -/
lemma Agrees.push {f : Frame} (h : Agrees (operandNext (f :: fs) ts) v) :
    Agrees (push f fs >>= fun gs => operandNext gs ts) v := by
  rcases push_cases f fs with hdeep | hok
  · rw [hdeep]
    exact Or.inr (Or.inl rfl)
  · rw [hok]
    exact h

/-- What follows frames that are completed. -/
lemma Agrees.settle {strength : Nat} {x : Float}
    {next : Float × List Frame → Except EvaluationError Float}
    (h : ∀ y gs, openGroups gs = openGroups fs →
      (strength = 0 → gs = [] ∨ ∃ hs, gs = .group :: hs) → Agrees (next (y, gs)) v) :
    Agrees (settle strength x fs >>= next) v := by
  rcases settle_cases strength x fs with hzero | ⟨y, gs, hok, hopen, hfirst⟩
  · rw [hzero]
    exact Or.inl rfl
  · rw [hok]
    exact h y gs hopen hfirst

/-- Behind an operand, an operator makes the scanner want another one. -/
lemma agrees_operator {x : Float} {op : Operator}
    (h : ∀ gs, Agrees (operandNext gs ts) ((Scanner.wanting (openGroups gs)).run ts)) :
    Agrees (operatorNext x fs (.operator op :: ts))
      ((Scanner.holding (openGroups fs)).run (.operator op :: ts)) := by
  rw [Scanner.run_of_inl (Scanner.step_operator (openGroups fs) op), operatorNext]
  refine Agrees.settle fun y gs hopen _ => Agrees.push ?_
  rw [← hopen, ← openGroups_pending op y gs]
  exact h _

/-- Behind an operand, a closing parenthesis closes a group, or the value is complete. -/
lemma agrees_closing {x : Float}
    (h : ∀ y gs, Agrees (operatorNext y gs ts) ((Scanner.holding (openGroups gs)).run ts)) :
    Agrees (operatorNext x fs (.closing :: ts))
      ((Scanner.holding (openGroups fs)).run (.closing :: ts)) := by
  rw [operatorNext]
  refine Agrees.settle fun y gs hopen hfirst => ?_
  rw [← hopen]
  rcases hfirst rfl with rfl | ⟨hs, rfl⟩
  · exact agrees_ok y
  · exact h y hs

/-- Where nothing continues the expression, an open group is not closed any more. -/
lemma agrees_end {x : Float} {rest : List Token}
    (hop : ∀ op ts', rest ≠ .operator op :: ts') (hcl : ∀ ts', rest ≠ .closing :: ts') :
    Agrees (operatorNext x fs rest) ((Scanner.holding (openGroups fs)).run rest) := by
  have hstop : ∀ k, (Scanner.holding k).run rest = (Scanner.holding k).stop := by
    intro k
    rcases rest with _ | ⟨_ | op | _ | _, ts'⟩
    · rfl
    · cases k <;> rfl
    · exact absurd rfl (hop op ts')
    · cases k <;> rfl
    · exact absurd rfl (hcl ts')
  rw [hstop, operatorNext]
  · refine Agrees.settle fun y gs hopen hfirst => ?_
    rw [← hopen]
    rcases hfirst rfl with rfl | ⟨hs, rfl⟩
    · exact agrees_ok y
    · exact agrees_error .unclosedGroup
  · exact hop
  · exact hcl

end

/-- The machine agrees with the scanner that counts the groups on its stack. -/
lemma next_agrees (ts : List Token) :
    (∀ fs, Agrees (operandNext fs ts) ((Scanner.wanting (openGroups fs)).run ts)) ∧
      ∀ x fs, Agrees (operatorNext x fs ts) ((Scanner.holding (openGroups fs)).run ts) := by
  -- the two states of the machine call each other, and so both claims are carried along
  induction ts with
  | nil =>
    constructor
    · intro fs
      exact agrees_error .unexpectedEnd
    · intro x fs
      exact agrees_end nofun nofun
  | cons t ts ih =>
    obtain ⟨ihwanting, ihholding⟩ := ih
    cases t with
    | number digits =>
      constructor
      · intro fs
        rw [operandNext]
        cases hx : Numeral.read? digits with
        | none =>
          rw [Scanner.run_of_inr (Scanner.step_number_of_none hx _)]
          exact agrees_error (.invalidNumber digits)
        | some x =>
          rw [Scanner.run_of_inl (Scanner.step_number_of_some hx _)]
          exact ihholding x fs
      · intro x fs
        exact agrees_end nofun nofun
    | operator op =>
      constructor
      · intro fs
        cases op with
        | add => exact Agrees.push (ihwanting (.sign false :: fs))
        | subtract => exact Agrees.push (ihwanting (.sign true :: fs))
        | _ => exact agrees_error (.invalidNumber _)
      · intro x fs
        exact agrees_operator ihwanting
    | opening =>
      constructor
      · intro fs
        exact Agrees.push (ihwanting (.group :: fs))
      · intro x fs
        exact agrees_end nofun nofun
    | closing =>
      constructor
      · intro fs
        exact agrees_error (.invalidNumber _)
      · intro x fs
        exact agrees_closing ihholding

/-- The value of a token list never fails because of an error in an expression inside of it. -/
lemma value_not_invalid {ts : List Token} {e : EvaluationError} (h : value ts = .error e) :
    e.isInvalidExpression = false := by
  rcases (next_agrees ts).1 [] with hv | hv | hv
  · rw [← Except.error.inj (hv.symm.trans h)]
    rfl
  · rw [← Except.error.inj (hv.symm.trans h)]
    rfl
  · rw [show operandNext [] ts = .error e from h] at hv
    exact Scanner.run_not_invalid hv.symm

/-- **The machine decides like a counter.**  Unless the value of a token list is a division by zero
or nested too deeply, a scanner with nothing but a count of the open groups decides whether there
is a value, and names the same error, with the same text, if there is none. -/
theorem value_agrees_with_scanner (ts : List Token) :
    value ts = .error .divisionByZero ∨ value ts = .error (.tooDeep 256) ∨
      (value ts).map (fun _ => ()) = (Scanner.wanting 0).run ts :=
  (next_agrees ts).1 []

end Expression

end DeskCalculator
