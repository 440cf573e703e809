import DeskCalculator.Proofs.Expression.Continuation
import DeskCalculator.Proofs.Expression.Failure
import DeskCalculator.Proofs.Expression.GlyphReading

/-!
# Tokens and the text that they come from

The scanner passes over characters that belong to no token and loses nothing else
(`flatMap_text_scan`).  Its numbers are exactly the longest runs of digits and points: a number
between the tokens `ks` and `ls` comes from such a run, with `ks` made by the text in front of it
and `ls` by the text behind it (`scan_eq_number_iff`).

In the other direction, tokens that are written with a space between any two of them are cut apart
at the spaces again, whichever tokens they are (`scan_spacedOut`).
-/

namespace DeskCalculator

namespace Token

/-- A run of characters with the property `P` between `p` and `s`, which cannot be made longer. -/
structure IsLongestRun (P : Char → Prop) (p r s : Text) : Prop where
  ne_nil : r ≠ []
  all : ∀ c ∈ r, P c
  before : ∀ c ∈ p.getLast?, ¬P c
  behind : ∀ c ∈ s.head?, ¬P c

/-- The characters of tokens: digits, the point, the operators and the parentheses. -/
def isArithmetic (c : Char) : Bool :=
  c.isDigit || ".+-*/()".toList.contains c

/-! ### Nothing is lost -/

lemma isArithmetic_of_isPart {c : Char} (hc : Numeral.isPart c = true) : isArithmetic c = true := by
  rcases Bool.or_eq_true_iff.1 hc with hdigit | hpoint
  · rw [isArithmetic, hdigit, Bool.true_or]
  · rw [beq_iff_eq.1 hpoint]
    decide

/-- A character that is no part of a number is written back if it makes a token, and otherwise it
is passed over. -/
lemma flatMap_text_ofChar? {c : Char} (hc : Numeral.isPart c = false) :
    (ofChar? c).toList.flatMap text = [c].filter isArithmetic := by
  unfold ofChar?
  split
  case h_7 h₁ h₂ h₃ h₄ h₅ h₆ =>
    obtain ⟨hdigit, hpoint⟩ := Bool.or_eq_false_iff.1 hc
    have hnone : isArithmetic c = false := by
      rw [isArithmetic, hdigit]
      simp_all
    rw [List.filter_cons_of_neg (by simp [hnone])]
    rfl
  all_goals rfl

lemma flatMap_text_ofRun (run : Text) : (ofRun run).flatMap text = run.reverse := by
  unfold ofRun
  split
  · rename_i h
    rw [h]
    rfl
  · exact List.append_nil _

lemma flatMap_text_scanAfter (run t : Text) :
    (scanAfter run t).flatMap text = run.reverse ++ t.filter isArithmetic := by
  fun_induction scanAfter run t with
  | case1 run => rw [flatMap_text_ofRun, List.filter_nil, List.append_nil]
  | case2 run t ih =>
    rw [List.flatMap_append, flatMap_text_ofRun, List.flatMap_cons, ih]
    rfl
  | case3 run c t h hc ih =>
    rw [ih, List.filter_cons_of_pos (isArithmetic_of_isPart hc), List.reverse_cons,
      List.append_assoc]
    rfl
  | case4 run c t h hc ih =>
    rw [List.flatMap_append, List.flatMap_append, flatMap_text_ofRun, ih,
      flatMap_text_ofChar? (Bool.eq_false_iff.2 hc), List.append_assoc, List.reverse_nil,
      List.nil_append, ← List.filter_append, List.singleton_append]

/-- **Nothing is lost.**  The texts of the tokens make up the text without the characters that
belong to no token. -/
lemma flatMap_text_scan (t : Text) : (scan t).flatMap text = t.filter isArithmetic :=
  flatMap_text_scanAfter [] t

/-- Where no token is made, all characters belong to none. -/
lemma isArithmetic_of_scan_eq_nil {t : Text} (h : scan t = []) :
    ∀ c ∈ t, isArithmetic c = false := by
  have hkept := flatMap_text_scan t
  rw [h, List.flatMap_nil, eq_comm, List.filter_eq_nil_iff] at hkept
  exact fun c hc => Bool.eq_false_iff.2 (hkept c hc)

/-! ### Numbers are longest runs -/

/-- A number among the tokens behind a run is the one that the run makes, or it comes later. -/
lemma ofRun_append_eq {run digits : Text} {us ks ls : List Token}
    (h : ofRun run ++ us = ks ++ number digits :: ls) :
    (ks = [] ∧ run ≠ [] ∧ digits = run.reverse ∧ us = ls) ∨
      ∃ ks', ks = ofRun run ++ ks' ∧ us = ks' ++ number digits :: ls := by
  unfold ofRun at h ⊢
  by_cases hrun : run = []
  · rw [if_pos hrun] at h ⊢
    exact Or.inr ⟨ks, rfl, h⟩
  · rw [if_neg hrun] at h ⊢
    rcases ks with _ | ⟨k, ks⟩
    · obtain ⟨hdigits, hus⟩ := List.cons.inj h
      exact Or.inl ⟨rfl, hrun, (number.inj hdigits).symm, hus⟩
    · obtain ⟨rfl, hus⟩ := List.cons.inj h
      exact Or.inr ⟨ks, rfl, hus⟩

/-- A number does not come from tokens among which there is none. -/
lemma append_eq_number {digits : Text} {ms us ks ls : List Token}
    (hms : ∀ k ∈ ms, k.isNumber = false) (h : ms ++ us = ks ++ number digits :: ls) :
    ∃ ks', ks = ms ++ ks' ∧ us = ks' ++ number digits :: ls := by
  rcases List.append_eq_append_iff.1 h with ⟨ks', hks, hus⟩ | ⟨ms', hms', hls⟩
  · exact ⟨ks', hks, hus⟩
  · rcases ms' with _ | ⟨k, ms'⟩
    · exact ⟨[], by rw [hms', List.append_nil, List.append_nil], hls.symm⟩
    · obtain rfl : number digits = k := (List.cons.inj hls).1
      exact absurd (hms (number digits) (by rw [hms']; simp)) (by simp [isNumber])

namespace IsLongestRun

variable {P : Char → Prop} {p r s : Text}

/-- A run stays a longest one behind a text that does not end with one of its characters. -/
lemma behind_text (h : IsLongestRun P p r s) {u : Text} (hu : ∀ c ∈ u.getLast?, ¬P c) :
    IsLongestRun P (u ++ p) r s where
  ne_nil := h.ne_nil
  all := h.all
  before c hc := by
    by_cases hp : p = []
    · rw [hp, List.append_nil] at hc
      exact hu c hc
    · rw [List.getLast?_append_of_ne_nil _ hp] at hc
      exact h.before c hc
  behind := h.behind

end IsLongestRun

section Runs

open Numeral (isPart)

variable {run digits t : Text} {ks ls : List Token}

lemma scan_reverse_append (hrun : ∀ c ∈ run, isPart c = true) (t : Text) :
    scan (run.reverse ++ t) = scanAfter run t := by
  have hparts : ∀ c ∈ run.reverse, isPart c = true := fun c hc => hrun c (List.mem_reverse.1 hc)
  rw [scan, scanAfter_parts hparts, List.reverse_reverse, List.append_nil]

/-- The number comes from a longest run of digits and points, and the tokens on both sides of it
come from the texts on both sides of the run. -/
def ComesFromRun (ks : List Token) (digits : Text) (ls : List Token) (t : Text) : Prop :=
  ∃ p s, t = p ++ (digits ++ s) ∧ IsLongestRun (fun c => isPart c = true) p digits s ∧
    scan p = ks ∧ scan s = ls

/-- Behind a run and the characters of a token that is no number, or of none, a number comes from
the run or from the text behind those characters. -/
lemma comesFromRun_marks (marks : Text) (ms : List Token) (hrun : ∀ c ∈ run, isPart c = true)
    (hne : marks ≠ []) (hmarks : ∀ c ∈ marks, isPart c = false)
    (hms : ∀ k ∈ ms, k.isNumber = false)
    (hscan : ∀ u, u <+: t → scan (marks ++ u) = ms ++ scan u)
    (ih : ∀ ks, scan t = ks ++ number digits :: ls → ComesFromRun ks digits ls t)
    (h : scanAfter run (marks ++ t) = ks ++ number digits :: ls) :
    ComesFromRun ks digits ls (run.reverse ++ (marks ++ t)) := by
  have hstart : ∀ u, scanAfter run (marks ++ u) = ofRun run ++ scan (marks ++ u) := by
    intro u
    refine scanAfter_eq_ofRun_append (fun c hc => hmarks c ?_) run
    rw [List.head?_append_of_ne_nil _ hne] at hc
    exact List.mem_of_mem_head? hc
  rw [hstart] at h
  rcases ofRun_append_eq h with ⟨rfl, hrunne, rfl, rfl⟩ | ⟨ks', rfl, hrest⟩
  · refine ⟨[], marks ++ t, rfl, ⟨by simpa using hrunne, ?_, by simp, ?_⟩, rfl, rfl⟩
    · exact fun c hc => hrun c (List.mem_reverse.1 hc)
    · intro c hc
      rw [List.head?_append_of_ne_nil _ hne] at hc
      simp [hmarks c (List.mem_of_mem_head? hc)]
  · rw [hscan t (List.prefix_refl t)] at hrest
    obtain ⟨ks'', rfl, hbehind⟩ := append_eq_number hms hrest
    obtain ⟨p, s, rfl, hlongest, rfl, rfl⟩ := ih ks'' hbehind
    refine ⟨run.reverse ++ marks ++ p, s, by simp, hlongest.behind_text ?_, ?_, rfl⟩
    · intro c hc
      rw [List.getLast?_append_of_ne_nil _ hne] at hc
      simp [hmarks c (List.mem_of_mem_getLast? hc)]
    · rw [List.append_assoc, scan_reverse_append hrun, hstart, hscan p (List.prefix_append p _)]

lemma comesFromRun_scanAfter (hrun : ∀ c ∈ run, isPart c = true)
    (h : scanAfter run t = ks ++ number digits :: ls) :
    ComesFromRun ks digits ls (run.reverse ++ t) := by
  fun_induction scanAfter run t generalizing ks with
  | case1 run =>
    rw [← List.append_nil (ofRun run)] at h
    rcases ofRun_append_eq h with ⟨rfl, hrunne, rfl, rfl⟩ | ⟨ks', -, hnil⟩
    · refine ⟨[], [], rfl, ⟨by simpa using hrunne, ?_, by simp, by simp⟩, rfl, rfl⟩
      exact fun c hc => hrun c (List.mem_reverse.1 hc)
    · exact absurd hnil (by simp)
  | case2 run t ih =>
    rw [← scanAfter_star_star] at h
    exact comesFromRun_marks ['*', '*'] [operator .raise] hrun (by simp) (by simp; decide)
      (by simp [isNumber]) (fun u _ => scanAfter_star_star [] u) (fun ks hks => ih (by simp) hks) h
  | case3 run c t hstar hc ih =>
    have hextended := ih (by simpa [hc] using hrun) h
    rwa [List.reverse_cons, List.append_assoc] at hextended
  | case4 run c t hstar hc ih =>
    have hhead : ∀ u, u <+: t → c = '*' → ∀ d ∈ u.head?, d ≠ '*' := by
      rintro u ⟨v, rfl⟩ rfl d hd rfl
      obtain ⟨u, rfl⟩ := List.head?_eq_some_iff.1 hd
      exact hstar (u ++ v) rfl rfl
    have hmark : ∀ u, u <+: t → ∀ run, scanAfter run (c :: u) =
        ofRun run ++ (ofChar? c).toList ++ scan u := by
      intro u hu run
      rw [scanAfter_cons (hhead u hu), if_neg hc, scan]
    rw [← scan, ← hmark t (List.prefix_refl t)] at h
    exact comesFromRun_marks [c] (ofChar? c).toList hrun (by simp) (by simpa using hc)
      (fun k hk => isNumber_of_ofChar? (by simpa using hk)) (fun u hu => hmark u hu [])
      (fun ks hks => ih (by simp) hks) h

/-- **Numbers are longest runs.**  A token list has a number between `ks` and `ls` exactly if the
digits of the number are a longest run of digits and points, with `ks` made by the text in front of
it and `ls` by the text behind it. -/
lemma scan_eq_number_iff : scan t = ks ++ number digits :: ls ↔ ComesFromRun ks digits ls t := by
  constructor
  · exact @comesFromRun_scanAfter [] digits t ks ls (by simp)
  · rintro ⟨p, s, rfl, hlongest, rfl, rfl⟩
    rw [← List.append_assoc]
    exact scan_literal (fun c hc => by simpa using hlongest.before c hc) hlongest.all
      hlongest.ne_nil (fun c hc => by simpa using hlongest.behind c hc)

/-- Between two numbers that are neighbours as tokens, something is passed over. -/
lemma exists_passed_between {d₁ d₂ : Text} (h : scan t = ks ++ number d₁ :: number d₂ :: ls) :
    ∃ p gap s, t = p ++ (d₁ ++ (gap ++ (d₂ ++ s))) ∧ gap ≠ [] ∧
      ∀ c ∈ gap, isArithmetic c = false := by
  obtain ⟨p, rest, rfl, hfirst, rfl, hrest⟩ := scan_eq_number_iff.1 h
  obtain ⟨gap, s, rfl, hsecond, hgap, rfl⟩ := (@scan_eq_number_iff d₂ rest [] ls).1 hrest
  refine ⟨p, gap, s, rfl, ?_, isArithmetic_of_scan_eq_nil hgap⟩
  rintro rfl
  -- the second number would make the first run longer
  obtain ⟨c, d₂, rfl⟩ := List.exists_cons_of_ne_nil hsecond.ne_nil
  exact hfirst.behind c rfl (hsecond.all c List.mem_cons_self)

/-! ### Runs of stars -/

/-- A longest run of stars is read in pairs, apart from what stands around it. -/
lemma scan_stars {p s : Text} {k : ℕ}
    (h : IsLongestRun (· = '*') p (List.replicate k '*') s) :
    scan (p ++ (List.replicate k '*' ++ s)) =
      scan p ++ (List.replicate (k / 2) (operator .raise) ++
        (List.replicate (k % 2) (operator .multiply) ++ scan s)) := by
  obtain ⟨k, rfl⟩ : ∃ n, k = n + 1 :=
    Nat.exists_eq_succ_of_ne_zero fun hk => h.ne_nil (by simp [hk])
  rw [← scan_replicate_star h.behind, List.replicate_succ]
  exact scan_append_star (fun hlast => h.before '*' hlast rfl) _

end Runs

/-- **The scanner loses no character of a token and reads the longest runs.**  The texts of the
tokens, one after the other, are the digits, points, operators and parentheses of the text in their
order.  Every number comes from a longest run of digits and points, and every such run makes a
number; what stands in front of the run and behind it makes the tokens on both sides.  Between two
numbers that are neighbours as tokens, the text has at least one character that is passed over.  A
longest run of `k` stars makes a power of every two of them, and a multiplication of the one that is
left over if `k` is odd. -/
theorem scan_reads_longest_runs (t : Text) :
    (scan t).flatMap text = t.filter isArithmetic ∧
    (∀ ks digits ls, scan t = ks ++ number digits :: ls ↔
      ∃ p s, t = p ++ (digits ++ s) ∧
        IsLongestRun (fun c => Numeral.isPart c = true) p digits s ∧ scan p = ks ∧ scan s = ls) ∧
    (∀ ks d₁ d₂ ls, scan t = ks ++ number d₁ :: number d₂ :: ls →
      ∃ p gap s, t = p ++ (d₁ ++ (gap ++ (d₂ ++ s))) ∧ gap ≠ [] ∧
        ∀ c ∈ gap, isArithmetic c = false) ∧
    ∀ p k s, t = p ++ (List.replicate k '*' ++ s) →
      IsLongestRun (· = '*') p (List.replicate k '*') s →
      scan t = scan p ++ (List.replicate (k / 2) (operator .raise) ++
        (List.replicate (k % 2) (operator .multiply) ++ scan s)) := by
  refine ⟨flatMap_text_scan t, fun ks digits ls => scan_eq_number_iff, ?_, ?_⟩
  · intro ks d₁ d₂ ls h
    exact exists_passed_between h
  · rintro p k s rfl h
    exact scan_stars h

/-- Two numbers with a blank between them, three stars behind, and a glyph that is passed over. -/
theorem scan_longest_runs_of_blank_and_stars :
    let t := "1.5 2***(×3".toList
    (scan t).flatMap text = "1.52***(3".toList ∧
      (∃ p gap s, t = p ++ ("1.5".toList ++ (gap ++ (['2'] ++ s))) ∧ gap ≠ [] ∧
        ∀ c ∈ gap, isArithmetic c = false) ∧
      scan t = scan "1.5 2".toList ++
        ([operator .raise] ++ ([operator .multiply] ++ scan "(×3".toList)) := by
  intro t
  obtain ⟨htext, -, hgap, hstars⟩ := scan_reads_longest_runs t
  refine ⟨htext, ?_, ?_⟩
  · exact hgap [] "1.5".toList ['2'] _ rfl
  · exact hstars "1.5 2".toList 3 "(×3".toList rfl ⟨by simp, by simp, by simp, by simp⟩

/-! ### Tokens that are written with spaces between them -/

/-- A token that can be written down: a number has at least one character, and only digits and
points. -/
def IsWritable (k : Token) : Prop :=
  ∀ digits, k = number digits → digits ≠ [] ∧ ∀ c ∈ digits, Numeral.isPart c = true

/-- The tokens written down, with a space between any two of them. -/
def spacedOut (ks : List Token) : Text := [' '].intercalate (ks.map text)

lemma spacedOut_singleton (k : Token) : spacedOut [k] = k.text :=
  List.intercalate_singleton

lemma spacedOut_cons_cons (k l : Token) (ks : List Token) :
    spacedOut (k :: l :: ks) = k.text ++ ' ' :: spacedOut (l :: ks) := by
  rw [spacedOut, List.map_cons, List.map_cons, List.intercalate_cons_cons, List.append_assoc]
  rfl

lemma scan_text {k : Token} (hk : k.IsWritable) : scan k.text = [k] := by
  cases k with
  | number digits =>
    obtain ⟨hne, hparts⟩ := hk digits rfl
    have hliteral := scan_literal (s := []) (t := []) (by simp) hparts hne (by simp)
    rwa [List.append_nil] at hliteral
  | operator op => cases op <;> rfl
  | opening => rfl
  | closing => rfl

/-- A space cuts a text in two. -/
lemma scan_append_space (s t : Text) : scan (s ++ ' ' :: t) = scan s ++ scan t := by
  have hcut := scanAfter_cut (c := ' ') (by decide) (by decide) [] s t
  rwa [show ofChar? ' ' = none from rfl, Option.toList_none, List.append_nil] at hcut

/-- **Written tokens are read back.** -/
lemma scan_spacedOut {ks : List Token} (hks : ∀ k ∈ ks, k.IsWritable) :
    scan (spacedOut ks) = ks := by
  induction ks with
  | nil => rfl
  | cons k ks ih =>
    have hk : scan k.text = [k] := scan_text (hks k List.mem_cons_self)
    cases ks with
    | nil => rw [spacedOut_singleton, hk]
    | cons l ks =>
      rw [spacedOut_cons_cons, scan_append_space, hk,
        ih fun m hm => hks m (List.mem_cons_of_mem k hm)]
      rfl

end Token

namespace Expression

open Token (IsWritable spacedOut scan spacedOut_singleton spacedOut_cons_cons scan_spacedOut)

lemma isKept_of_mem_text {k : Token} (hk : k.IsWritable) {c : Char} (hc : c ∈ k.text) :
    IsKept c := by
  cases k with
  | number digits => exact isKept_of_isPart ((hk digits rfl).2 c hc)
  | operator op =>
    obtain rfl | rfl | rfl | rfl : c = '+' ∨ c = '-' ∨ c = '*' ∨ c = '/' := by
      cases op <;> simp_all [Token.text, Operator.written]
    all_goals exact ⟨rfl, by decide, by decide⟩
  | opening =>
    obtain rfl := List.mem_singleton.1 hc
    exact ⟨rfl, by decide, by decide⟩
  | closing =>
    obtain rfl := List.mem_singleton.1 hc
    exact ⟨rfl, by decide, by decide⟩

/-- No glyph, root or square is written for a token. -/
lemma isKept_of_mem_spacedOut {ks : List Token} (hks : ∀ k ∈ ks, k.IsWritable) :
    ∀ c ∈ spacedOut ks, IsKept c := by
  induction ks with
  | nil => simp [spacedOut]
  | cons k ks ih =>
    intro c hc
    have hk : k.IsWritable := hks k List.mem_cons_self
    cases ks with
    | nil =>
      rw [spacedOut_singleton] at hc
      exact isKept_of_mem_text hk hc
    | cons l ks =>
      rw [spacedOut_cons_cons] at hc
      rcases List.mem_append.1 hc with hc | hc
      · exact isKept_of_mem_text hk hc
      rcases List.mem_cons.1 hc with rfl | hc
      · exact ⟨rfl, by decide, by decide⟩
      · exact ih (fun m hm => hks m (List.mem_cons_of_mem k hm)) c hc

/-- **Written tokens are evaluated as they are.**  Let the numbers among some tokens be runs of
digits and points that are not empty.  The texts of the tokens with a space between any two of them
are scanned as these tokens, and evaluated to their value.  If they have none, the error of the
tokens is noted once as that of an invalid expression. -/
theorem evaluate_spaced_tokens {ks : List Token}
    (hks : ∀ digits, .number digits ∈ ks →
      digits ≠ [] ∧ ∀ c ∈ digits, Numeral.isPart c = true) :
    let t := [' '].intercalate (ks.map Token.text)
    scan t = ks ∧ evaluate t = (value ks).mapError .invalidExpression ∧
      ∀ e, value ks = .error e → e.isInvalidExpression = false := by
  intro t
  have hwritable : ∀ k ∈ ks, k.IsWritable := by
    rintro k hk digits rfl
    exact hks digits hk
  have hscan : scan t = ks := scan_spacedOut hwritable
  have hkept : ∀ c ∈ t, IsKept c := isKept_of_mem_spacedOut hwritable
  refine ⟨hscan, ?_, fun e he => value_not_invalid he⟩
  rw [evaluate_of_not_mem (fun h => (hkept _ h).2.1 rfl) (fun h => (hkept _ h).2.2 rfl),
    canonical_eq_self fun c hc => (hkept c hc).1, hscan, mapError_invalid_value]

/-- Two numbers beside each other and two stars that are two multiplications. -/
theorem evaluate_spaced_neighbours :
    let ks := [.number "1.2.3".toList, .number "4".toList, .operator .multiply,
      .operator .multiply, .operator .raise, .opening]
    scan "1.2.3 4 * * ** (".toList = ks ∧
      evaluate "1.2.3 4 * * ** (".toList =
        .error (.invalidExpression (.invalidNumber "1.2.3".toList)) := by
  intro ks
  have hks : ∀ digits, .number digits ∈ ks →
      digits ≠ [] ∧ ∀ c ∈ digits, Numeral.isPart c = true := by
    intro digits hdigits
    obtain rfl | rfl : digits = "1.2.3".toList ∨ digits = "4".toList := by
      simpa [ks] using hdigits
    · exact ⟨by decide, List.all_eq_true.1 (by decide)⟩
    · exact ⟨by decide, List.all_eq_true.1 (by decide)⟩
  obtain ⟨hscan, hvalue, -⟩ := evaluate_spaced_tokens hks
  exact ⟨hscan, hvalue⟩

end Expression

end DeskCalculator
