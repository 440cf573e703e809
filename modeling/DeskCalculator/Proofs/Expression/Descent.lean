import DeskCalculator.Expression.Descent
import DeskCalculator.Proofs.Expression.Parsing

/-!
# Recursive descent computes the value

The functions of the recursive descent keep on the call stack what the machine keeps on its own: a
function called from inside a group, behind a sign or behind an operator stands for a frame, and the
level that it is called with for the nesting of the stack.  So the machine, wanting an operand on the
stack `fs`, does what a function called at the level `nesting fs` does, and goes on with the number
behind what that function has read.  For this the stack must not let an operator that the function
reads complete a frame (`Settled`), and behind what it has read no operator that binds more strongly
may follow, which is why it has stopped there (`demand`).
-/

namespace DeskCalculator

namespace Expression

namespace Descent

variable {depth : Nat} {ts us : List Token} {ops : List Operator} {op : Operator}

/-! ### What follows -/

lemma not_raise_of_sum (h : op ∈ [.add, .subtract]) : op ≠ .raise ∧ op.strength = 1 := by
  revert op
  decide

lemma not_raise_of_product (h : op ∈ [.multiply, .divide]) : op ≠ .raise ∧ op.strength = 2 := by
  revert op
  decide

/-- Where none of the operators `ops` follows, an operator that follows is another one. -/
lemma not_mem_of_operator?_eq_none (h : operator? ops (.operator op :: ts) = none) : op ∉ ops := by
  intro hop
  rw [operator?_eq_some_iff.2 ⟨rfl, hop⟩] at h
  cases h

lemma demand_le_two (h : operator? [.raise] ts = none) : demand ts ≤ 2 := by
  rcases demand_le_two_or ts with hd | ⟨us, rfl⟩
  · exact hd
  · exact absurd (List.mem_singleton.2 rfl) (not_mem_of_operator?_eq_none h)

lemma demand_le_one (hd : demand ts ≤ 2) (h : operator? [.multiply, .divide] ts = none) :
    demand ts ≤ 1 := by
  rcases demand_le_one_or hd with hd | ⟨us, rfl | rfl⟩
  · exact hd
  · exact absurd (by simp) (not_mem_of_operator?_eq_none h)
  · exact absurd (by simp) (not_mem_of_operator?_eq_none h)

lemma endsExpr_of_operator? (hd : demand ts ≤ 1) (h : operator? [.add, .subtract] ts = none) :
    Grammar.EndsExpr ts := by
  rcases demand_eq_zero_or hd with hend | ⟨us, rfl | rfl⟩
  · exact hend
  · exact absurd (by simp) (not_mem_of_operator?_eq_none h)
  · exact absurd (by simp) (not_mem_of_operator?_eq_none h)

lemma read_of_nested {α : Type} {read : Nat → Except EvaluationError α} {x : α}
    (h : nested depth read = .ok x) : read (depth + 1) = .ok x := by
  rw [nested] at h
  split at h
  · cases h
  · exact h

/-- Behind a power no exponent follows. -/
lemma demand_of_power {depth : Nat} {ts : List Token} {r : Reading ts}
    (h : power depth ts = .ok r) : demand r.rest ≤ 2 := by
  rw [power] at h
  obtain ⟨base, -, h⟩ := bind_eq_ok h
  split at h
  · rename_i hnone
    obtain rfl := Except.ok.inj h
    exact demand_le_two hnone
  · rename_i op us hsome
    obtain ⟨s, hs, h⟩ := bind_eq_ok h
    obtain ⟨x, -, h⟩ := bind_eq_ok h
    obtain rfl := Except.ok.inj h
    have hlt : us.length < ts.length :=
      Nat.lt_trans (base.length_lt_of_operator? hsome) base.rest_lt
    rw [Reading.rest_continued]
    exact demand_of_power (read_of_nested hs)
termination_by ts.length

lemma demand_of_product {ts : List Token} {r s : Reading ts} (hd : demand r.rest ≤ 2)
    (h : product depth r = .ok s) : demand s.rest ≤ 1 := by
  rw [product] at h
  split at h
  · rename_i hnone
    obtain rfl := Except.ok.inj h
    exact demand_le_one hd hnone
  · rename_i op us hsome
    obtain ⟨t, ht, h⟩ := bind_eq_ok h
    obtain ⟨x, -, h⟩ := bind_eq_ok h
    have hlt : t.rest.length < r.rest.length :=
      Nat.lt_trans t.rest_lt (r.length_lt_of_operator? hsome)
    refine demand_of_product ?_ h
    rw [Reading.rest_continued]
    exact demand_of_power ht
termination_by r.rest.length

/-- Behind a term no power follows. -/
lemma demand_of_term {r : Reading ts} (h : term depth ts = .ok r) : demand r.rest ≤ 1 := by
  rw [term] at h
  obtain ⟨s, hs, h⟩ := bind_eq_ok h
  exact demand_of_product (demand_of_power hs) h

lemma endsExpr_of_sum {ts : List Token} {r s : Reading ts} (hd : demand r.rest ≤ 1)
    (h : sum depth r = .ok s) : Grammar.EndsExpr s.rest := by
  rw [sum] at h
  split at h
  · rename_i hnone
    obtain rfl := Except.ok.inj h
    exact endsExpr_of_operator? hd hnone
  · rename_i op us hsome
    obtain ⟨t, ht, h⟩ := bind_eq_ok h
    obtain ⟨x, -, h⟩ := bind_eq_ok h
    have hlt : t.rest.length < r.rest.length :=
      Nat.lt_trans t.rest_lt (r.length_lt_of_operator? hsome)
    refine endsExpr_of_sum ?_ h
    rw [Reading.rest_continued]
    exact demand_of_term ht
termination_by r.rest.length

/-- Behind an expression no term follows. -/
lemma endsExpr_of_expr {r : Reading ts} (h : expr depth ts = .ok r) : Grammar.EndsExpr r.rest := by
  rw [expr] at h
  obtain ⟨s, hs, h⟩ := bind_eq_ok h
  exact endsExpr_of_sum (demand_of_term hs) h

/-! ### The machine and the descent -/

/-- The value that the machine finds on the stack `fs` when it goes on with what has been read. -/
def goOn (fs : List Frame) (r : Reading ts) : Except EvaluationError Float :=
  operatorNext r.value fs r.rest

lemma bind_congr_of_ok {α β : Type} {u : Except EvaluationError α}
    {f g : α → Except EvaluationError β} (h : ∀ x, u = .ok x → f x = g x) : u >>= f = u >>= g := by
  cases u with
  | error e => rfl
  | ok x => exact h x rfl

section

variable {fs : List Frame}

/-- A frame that nests is put on the stack where the descent goes one level deeper. -/
lemma push_eq_nested {f : Frame} (hf : f.nests = true)
    (read : Nat → Except EvaluationError (Reading ts))
    (h : operandNext (f :: fs) ts = read (nesting (f :: fs)) >>= goOn (f :: fs)) :
    push f fs >>= (fun gs => operandNext gs ts) =
      nested (nesting fs) read >>= goOn (f :: fs) := by
  rw [nesting_cons_of_nests hf] at h
  rw [push, nested, hf, Bool.true_and]
  by_cases hlimit : nestingLimit ≤ nesting fs
  · rw [if_pos (decide_eq_true hlimit), if_pos hlimit]
    rfl
  · rw [if_neg (by simpa using hlimit), if_neg hlimit]
    exact h

/-- Over an operator the machine goes on with its right operand, applies the operator when nothing
that binds more strongly follows, and goes on as `next` does with the result. -/
lemma goOn_operator {r : Reading ts} (h : operator? ops r.rest = some (op, us))
    (hs : Settled op.settles fs) {u : Except EvaluationError (Reading us)}
    (hu : push (.pending op r.value) fs >>= (fun gs => operandNext gs us) =
      u >>= goOn (.pending op r.value :: fs))
    (hd : ∀ s, u = .ok s → demand s.rest ≤ op.strength)
    (next : Reading ts → Except EvaluationError (Reading ts))
    (hnext : ∀ s x, goOn fs (r.continued h s x) = next (r.continued h s x) >>= goOn fs) :
    goOn fs r =
      (u >>= fun s => op.apply r.value s.value >>= fun x => next (r.continued h s x)) >>=
        goOn fs := by
  rw [goOn, (operator?_eq_some_iff.1 h).1, operatorNext_operator hs, hu, bind_assoc]
  refine bind_congr_of_ok fun s hs => ?_
  rw [bind_assoc]
  calc goOn (.pending op r.value :: fs) s
      = op.apply r.value s.value >>= fun x => goOn fs (r.continued h s x) :=
        operatorNext_pending (hd s hs) r.value s.value fs
    _ = op.apply r.value s.value >>= fun x => next (r.continued h s x) >>= goOn fs :=
        bind_congr_of_ok fun x _ => hnext s x

/-- An operator that is no power leaves the descent on its level. -/
lemma goOn_joined {r : Reading ts} (h : operator? ops r.rest = some (op, us)) (hop : op ≠ .raise)
    (hs : Settled op.strength fs) (read : Nat → Except EvaluationError (Reading us))
    (hread : operandNext (.pending op r.value :: fs) us =
      read (nesting (.pending op r.value :: fs)) >>= goOn (.pending op r.value :: fs))
    (hd : ∀ s, read (nesting fs) = .ok s → demand s.rest ≤ op.strength)
    (next : Reading ts → Except EvaluationError (Reading ts))
    (hnext : ∀ s x, goOn fs (r.continued h s x) = next (r.continued h s x) >>= goOn fs) :
    goOn fs r =
      (read (nesting fs) >>= fun s => op.apply r.value s.value >>= fun x =>
        next (r.continued h s x)) >>= goOn fs := by
  have hnests := nests_pending hop r.value
  refine goOn_operator h (by rwa [Operator.settles_eq hop]) ?_ hd next hnext
  rw [nesting_cons_of_not_nests hnests] at hread
  rw [push_of_not_nests hnests]
  exact hread

/-- A sign is applied to the operand that has been read behind it. -/
lemma goOn_sign (negative : Bool) (r : Reading ts) (sign : Token) :
    goOn (.sign negative :: fs) r =
      goOn fs (r.signed sign (if negative then -r.value else r.value)) :=
  operatorNext_sign r.value negative fs r.rest

/-- A group that has been read ends at a closing parenthesis, or fails. -/
lemma goOn_group {r : Reading ts} (hend : Grammar.EndsExpr r.rest) :
    goOn (.group :: fs) r = r.close >>= goOn fs := by
  rw [goOn, Reading.close]
  split
  · rename_i us h
    calc goOn (.group :: fs) r
        = operatorNext r.value (.group :: fs) (.closing :: us) := by rw [goOn, h]
      _ = operatorNext r.value fs us := operatorNext_closing r.value fs us
  · rename_i hno
    rcases hrest : r.rest with _ | ⟨_ | _ | _ | _, us⟩
    case cons.operator =>
      rw [hrest] at hend
      exact hend.elim
    case cons.closing => exact absurd hrest (hno us)
    all_goals rfl

end

-- The lemmas call each other as the functions do: the tokens get fewer, or stay the same on the way
-- from an expression down to a factor.
mutual

lemma operandNext_eq_expr (ts : List Token) {fs : List Frame} (hs : Settled 1 fs) :
    operandNext fs ts = expr (nesting fs) ts >>= goOn fs := by
  rw [expr, bind_assoc, operandNext_eq_term ts (hs.mono (by decide))]
  exact bind_congr_of_ok fun r _ => goOn_eq_sum r hs
termination_by (ts.length, 3)
decreasing_by
  · exact .right _ (by decide)
  · exact .left _ _ r.rest_lt

lemma goOn_eq_sum {ts : List Token} (r : Reading ts) {fs : List Frame} (hs : Settled 1 fs) :
    goOn fs r = sum (nesting fs) r >>= goOn fs := by
  rw [sum]
  split
  · rfl
  · rename_i op us h
    obtain ⟨hop, hstrength⟩ := not_raise_of_sum (operator?_eq_some_iff.1 h).2
    have hus : us.length < r.rest.length := r.length_lt_of_operator? h
    refine goOn_joined h hop (by rwa [hstrength]) (fun d => term d us) ?_ ?_
      (sum (nesting fs)) ?_
    · exact operandNext_eq_term us (settled_pending (by rw [hstrength]; decide) r.value fs)
    · intro s hs
      rw [hstrength]
      exact demand_of_term hs
    · intro s x
      have hrest : s.rest.length < r.rest.length := Nat.lt_trans s.rest_lt hus
      exact goOn_eq_sum (r.continued h s x) hs
termination_by (r.rest.length, 0)

lemma operandNext_eq_term (ts : List Token) {fs : List Frame} (hs : Settled 2 fs) :
    operandNext fs ts = term (nesting fs) ts >>= goOn fs := by
  rw [term, bind_assoc, operandNext_eq_power ts (hs.mono (by decide))]
  exact bind_congr_of_ok fun r _ => goOn_eq_product r hs
termination_by (ts.length, 2)
decreasing_by
  · exact .right _ (by decide)
  · exact .left _ _ r.rest_lt

lemma goOn_eq_product {ts : List Token} (r : Reading ts) {fs : List Frame} (hs : Settled 2 fs) :
    goOn fs r = product (nesting fs) r >>= goOn fs := by
  rw [product]
  split
  · rfl
  · rename_i op us h
    obtain ⟨hop, hstrength⟩ := not_raise_of_product (operator?_eq_some_iff.1 h).2
    have hus : us.length < r.rest.length := r.length_lt_of_operator? h
    refine goOn_joined h hop (by rwa [hstrength]) (fun d => power d us) ?_ ?_
      (product (nesting fs)) ?_
    · exact operandNext_eq_power us (settled_pending (by rw [hstrength]; decide) r.value fs)
    · intro s hs
      rw [hstrength]
      exact demand_of_power hs
    · intro s x
      have hrest : s.rest.length < r.rest.length := Nat.lt_trans s.rest_lt hus
      exact goOn_eq_product (r.continued h s x) hs
termination_by (r.rest.length, 0)

lemma operandNext_eq_power (ts : List Token) {fs : List Frame} (hs : Settled 4 fs) :
    operandNext fs ts = power (nesting fs) ts >>= goOn fs := by
  rw [power, bind_assoc, operandNext_eq_factor ts fs]
  refine bind_congr_of_ok fun r _ => ?_
  split
  · rfl
  · rename_i op us h
    obtain rfl : op = .raise := List.mem_singleton.1 (operator?_eq_some_iff.1 h).2
    have hus : us.length < ts.length := Nat.lt_trans (r.length_lt_of_operator? h) r.rest_lt
    refine goOn_operator h hs ?_ ?_ .ok fun s x => rfl
    · exact push_eq_nested rfl (fun d => power d us)
        (operandNext_eq_power us (settled_pending (by decide) r.value fs))
    · intro s hs
      exact Nat.le_succ_of_le (demand_of_power (read_of_nested hs))
termination_by (ts.length, 1)

lemma operandNext_eq_factor (ts : List Token) (fs : List Frame) :
    operandNext fs ts = factor (nesting fs) ts >>= goOn fs := by
  rcases ts with _ | ⟨digits | op | _ | _, ts⟩
  · rw [factor]
    rfl
  · rw [factor, operandNext]
    cases Numeral.read? digits <;> rfl
  · cases op with
    | subtract =>
      have hsigned := operandNext_eq_factor ts (.sign true :: fs)
      rw [factor, operandNext, push_eq_nested rfl (fun d => factor d ts) hsigned, bind_assoc]
      exact bind_congr_of_ok fun r _ => goOn_sign true r _
    | add =>
      have hsigned := operandNext_eq_factor ts (.sign false :: fs)
      rw [factor, operandNext, push_eq_nested rfl (fun d => factor d ts) hsigned, bind_assoc]
      exact bind_congr_of_ok fun r _ => goOn_sign false r _
    | _ =>
      simp only [factor, operandNext]
      rfl
  · have hs : Settled 1 (.group :: fs) := trivial
    rw [factor, operandNext, push_eq_nested rfl (fun d => expr d ts) (operandNext_eq_expr ts hs),
      bind_assoc]
    exact bind_congr_of_ok fun r hr => goOn_group (endsExpr_of_expr (read_of_nested hr))
  · simp only [factor, operandNext]
    rfl
termination_by (ts.length, 0)

end

end Descent

/-- **Recursive descent computes the value.**  On every token list the machine and the descent end
with the same number, or fail in the same way. -/
theorem value_eq_descend (ts : List Token) : value ts = descend ts := by
  have hs : Settled 1 [] := trivial
  have hvalue : value ts = Descent.expr 0 ts >>= Descent.goOn [] :=
    Descent.operandNext_eq_expr ts hs
  rw [hvalue, descend]
  cases hr : Descent.expr 0 ts with
  | error e => rfl
  | ok r => exact operatorNext_nil (Descent.endsExpr_of_expr hr) r.value

end Expression

end DeskCalculator
