import DeskCalculator.Proofs.Expression.Scanner
import DeskCalculator.Proofs.Expression.Scanning

/-!
# Groups that are not closed

When the scanner reports a group that is not closed, it has gone over a beginning of the tokens
that opens more groups than it closes, and ends with an operand; what stands behind it is nothing,
a number or another opening parenthesis (`Scanner.exists_of_run_unclosed`).  So where groups are
opened one at a time and closed in the end, and no two numbers are neighbours inside of them, no
value fails for that reason (`value_ne_unclosed`).
-/

namespace DeskCalculator

namespace Token

/-- Whether the token can be nothing but the start of an operand. -/
def onlyStartsOperand : Token → Bool
  | number _ => true
  | opening => true
  | _ => false

end Token

namespace Expression

open Token

/-! ### Where the scanner stops -/

namespace Scanner

/-- The number of groups that are open. -/
def opened : Scanner → Nat
  | wanting k => k
  | holding k => k

/-- Over one token, the count of open groups follows the parentheses, and an operand has been read
if the token ends one. -/
lemma step_inl {s s' : Scanner} {t : Token} (h : s.step t = .inl s') :
    s.opened + [t].count opening = s'.opened + [t].count closing ∧
      ∀ k, s' = holding k → t.endsOperand = true := by
  unfold step at h
  split at h
  case h_4 =>
    split at h
    · cases h
      simp [opened, endsOperand]
    · cases h
  all_goals cases h
  all_goals simp [opened, endsOperand]

/-- At one token, a group turns out to be left open only if the token starts another operand. -/
lemma step_unclosed {s : Scanner} {t : Token} (h : s.step t = .inr (.error .unclosedGroup)) :
    ∃ k, s = holding (k + 1) ∧ t.onlyStartsOperand = true := by
  cases s with
  | wanting k =>
    rcases t with digits | op | _ | _
    · rw [step] at h
      split at h <;> cases h
    · cases op <;> cases h
    · cases h
    · cases h
  | holding k =>
    rcases k with _ | k <;> rcases t with digits | op | _ | _ <;> cases h
    · exact ⟨k, rfl, rfl⟩
    · exact ⟨k, rfl, rfl⟩

/-- What the scanner has gone over when a group turns out to be left open, and what follows. -/
lemma exists_of_run_unclosed {s : Scanner} {ts : List Token}
    (h : s.run ts = .error .unclosedGroup) :
    ∃ u v, ts = u ++ v ∧ u.count closing < s.opened + u.count opening ∧
      (∀ t ∈ u.getLast?, t.endsOperand = true) ∧ (u = [] → ∃ k, s = holding k) ∧
      ∀ t ∈ v.head?, t.onlyStartsOperand = true := by
  induction ts generalizing s with
  | nil =>
    refine ⟨[], [], rfl, ?_⟩
    unfold run stop at h
    split at h
    · cases h
    · cases h
    · rename_i k
      simp [opened]
  | cons t ts ih =>
    rcases hstep : s.step t with s' | v
    · rw [run_of_inl hstep] at h
      obtain ⟨u, v, rfl, hopen, hlast, hnil, hnext⟩ := ih h
      obtain ⟨hcount, hends⟩ := step_inl hstep
      refine ⟨t :: u, v, rfl, ?_, fun k hk => ?_, fun h => absurd h (List.cons_ne_nil t u), hnext⟩
      · rw [← List.singleton_append, List.count_append, List.count_append]
        omega
      · rcases List.eq_nil_or_concat' u with rfl | ⟨u', l, rfl⟩
        · obtain rfl : t = k := by simpa using hk
          obtain ⟨n, hn⟩ := hnil rfl
          exact hends n hn
        · rw [← List.cons_append, List.getLast?_concat] at hk
          exact hlast k (by rwa [List.getLast?_concat])
    · rw [run_of_inr hstep] at h
      obtain ⟨k, rfl, hstart⟩ := step_unclosed (h ▸ hstep)
      exact ⟨[], t :: ts, rfl, by simp [opened], by simp, fun _ => ⟨_, rfl⟩, by simpa using hstart⟩

end Scanner

/-! ### Groups one at a time -/

/-- Groups are opened one at a time and closed in the end, and behind the first opening
parenthesis no two numbers are neighbours. -/
structure OneGroup (ts : List Token) : Prop where
  flat : ∀ u v, ts = u ++ v → u.count opening ≤ u.count closing + 1
  closed : ts.count opening = ts.count closing
  apart : ∀ u v, ts = u ++ opening :: v → opening ∉ u → v.IsChain NotBothNumbers

lemma OneGroup.run_ne_unclosed {ts : List Token} (h : OneGroup ts) :
    (Scanner.wanting 0).run ts ≠ .error .unclosedGroup := by
  intro hrun
  obtain ⟨u, v, rfl, hopen, hlast, hnil, hnext⟩ := Scanner.exists_of_run_unclosed hrun
  rw [Scanner.opened, Nat.zero_add] at hopen
  rcases v with _ | ⟨t, v⟩
  · -- the tokens end with a group open
    have := h.closed
    rw [List.append_nil] at this
    omega
  obtain rfl | ⟨u, l, rfl⟩ := List.eq_nil_or_concat' u
  · obtain ⟨k, hk⟩ := hnil rfl
    cases hk
  have hl : l.endsOperand = true := hlast l (by simp)
  have ht : t.onlyStartsOperand = true := hnext t rfl
  cases t with
  | operator op => cases ht
  | closing => cases ht
  | opening =>
    -- one group is open and another one would be opened
    have := h.flat (u ++ [l] ++ [opening]) v (by simp)
    rw [List.count_append, List.count_append (a := closing), List.count_singleton_self,
      show [opening].count closing = 0 from rfl] at this
    omega
  | number y =>
    cases l with
    | operator op => cases hl
    | opening => cases hl
    | closing =>
      -- a group has been closed, and another one is open still
      have := h.flat u (closing :: number y :: v) (by simp)
      simp only [List.count_append, List.count_singleton_self,
        show [closing].count opening = 0 from rfl] at hopen
      omega
    | number x =>
      have hmem : opening ∈ u := by
        simp only [List.count_append, show [number x].count opening = 0 from rfl,
          show [number x].count closing = 0 from rfl] at hopen
        exact List.count_pos_iff.1 (by omega)
      obtain ⟨a, b, rfl, ha⟩ := List.eq_append_cons_of_mem hmem
      have hchain := h.apart a (b ++ [number x] ++ number y :: v) (by simp) ha
      exact (List.isChain_append.1 hchain).2.2 (number x) (by simp) (number y) rfl ⟨rfl, rfl⟩

/-- The value of such tokens does not fail because a group is not closed. -/
lemma OneGroup.value_ne_unclosed {ts : List Token} (h : OneGroup ts) :
    value ts ≠ .error .unclosedGroup := by
  intro hv
  rcases (next_agrees ts).1 [] with hz | hd | hr
  · exact absurd (hz.symm.trans hv) (by simp)
  · exact absurd (hd.symm.trans hv) (by simp)
  · rw [show operandNext [] ts = .error .unclosedGroup from hv] at hr
    exact h.run_ne_unclosed hr.symm

end Expression

end DeskCalculator
