import DeskCalculator.Expression.Glyph
import DeskCalculator.Expression.Token
import DeskCalculator.Proofs.Number.DecimalText
import Mathlib.Data.List.Chain

/-!
# Scanning

How the scanner goes over a text.  Where a number cannot go on and no pair of stars is cut, a
text may be scanned in parts (`scan_append_of_apart`, `scan_literal`).  In a text of the keypad no
two operator glyphs are neighbours, and so the scanner makes exactly one token of each glyph
of its canonical form (`filter_scan_canonical`).
-/

namespace DeskCalculator

namespace Token

/-- Whether the token is a number. -/
def isNumber : Token → Bool
  | number _ => true
  | _ => false

/-- Whether an operand can end with the token. -/
def endsOperand : Token → Bool
  | number _ => true
  | closing => true
  | _ => false

/-! ### One character -/

lemma ofRun_nil : ofRun [] = [] := rfl

lemma scanAfter_nil (run : Text) : scanAfter run [] = ofRun run := by
  rw [scanAfter]

/-- A character that is not the first of two stars makes a token by itself, or none. -/
lemma scanAfter_cons {c : Char} {t : Text} (h : c = '*' → ∀ d ∈ t.head?, d ≠ '*') (run : Text) :
    scanAfter run (c :: t) =
      if Numeral.isPart c then scanAfter (c :: run) t
      else ofRun run ++ (ofChar? c).toList ++ scanAfter [] t := by
  rw [scanAfter]
  rintro t' hc rfl
  exact h hc '*' rfl rfl

lemma scanAfter_cons_of_ne {c : Char} (hc : c ≠ '*') (run t : Text) :
    scanAfter run (c :: t) =
      if Numeral.isPart c then scanAfter (c :: run) t
      else ofRun run ++ (ofChar? c).toList ++ scanAfter [] t :=
  scanAfter_cons (fun h => absurd h hc) run

/-- A star that no star follows is a multiplication. -/
lemma scanAfter_star {t : Text} (ht : ∀ c ∈ t.head?, c ≠ '*') (run : Text) :
    scanAfter run ('*' :: t) = ofRun run ++ operator .multiply :: scanAfter [] t := by
  rw [scanAfter_cons (fun _ => ht), if_neg (by decide), List.append_assoc]
  rfl

lemma scanAfter_star_star (run t : Text) :
    scanAfter run ('*' :: '*' :: t) = ofRun run ++ operator .raise :: scanAfter [] t := by
  rw [scanAfter]

/-- Where the next character is no part of a number, the number is complete. -/
lemma scanAfter_eq_ofRun_append {t : Text} (ht : ∀ c ∈ t.head?, Numeral.isPart c = false)
    (run : Text) : scanAfter run t = ofRun run ++ scanAfter [] t := by
  rcases t with _ | ⟨c, t⟩
  · rw [scanAfter_nil, scanAfter_nil, ofRun_nil, List.append_nil]
  · have hc : Numeral.isPart c = false := ht c rfl
    by_cases hstar : c = '*'
    · subst hstar
      by_cases hs : ∀ d ∈ t.head?, d ≠ '*'
      · rw [scanAfter_star hs, scanAfter_star hs]
        rfl
      · rcases t with _ | ⟨d, t⟩
        · exact absurd (by simp) hs
        · obtain rfl : d = '*' := by simpa using hs
          rw [scanAfter_star_star, scanAfter_star_star]
          rfl
    · rw [scanAfter_cons_of_ne hstar, scanAfter_cons_of_ne hstar, hc,
        if_neg (by decide), if_neg (by decide), List.append_assoc]
      rfl

/-! ### Parts of a text -/

lemma scanAfter_parts {l : Text} (hl : ∀ c ∈ l, Numeral.isPart c = true) (run t : Text) :
    scanAfter run (l ++ t) = scanAfter (l.reverse ++ run) t := by
  induction l generalizing run with
  | nil => rfl
  | cons c l ih =>
    have hc : Numeral.isPart c = true := hl c List.mem_cons_self
    have hne : c ≠ '*' := Numeral.ne_of_isPart hc (by decide)
    rw [List.cons_append, scanAfter_cons_of_ne hne, if_pos hc,
      ih (fun d hd => hl d (List.mem_cons_of_mem c hd)), List.reverse_cons, List.append_assoc]
    rfl

/-- Two texts across which no number and no pair of stars reaches. -/
def Apart (s t : Text) : Prop :=
  ∀ c ∈ s.getLast?, ∀ d ∈ t.head?,
    ¬(Numeral.isPart c = true ∧ Numeral.isPart d = true) ∧ ¬(c = '*' ∧ d = '*')

lemma Apart.of_cons {c : Char} {s t : Text} (h : Apart (c :: s) t) : Apart s t :=
  fun d hd => h d (List.mem_getLast?_cons hd)

/-- Such texts are scanned one after the other. -/
lemma scanAfter_append_of_apart {s t : Text} (h : Apart s t) (hne : s ≠ []) (run : Text) :
    scanAfter run (s ++ t) = scanAfter run s ++ scanAfter [] t := by
  -- the condition on the end of `s` carries over to its rest, unless that is empty
  fun_induction scanAfter run s with
  | case1 => exact absurd rfl hne
  | case2 run s ih =>
    rw [List.cons_append, List.cons_append, scanAfter_star_star]
    by_cases hnil : s = []
    · rw [hnil, List.nil_append, scanAfter_nil, ofRun_nil, List.append_assoc]
      rfl
    · rw [ih h.of_cons.of_cons hnil, List.append_assoc, List.cons_append]
  | case3 run c s hs hc ih =>
    have hstar : c ≠ '*' := Numeral.ne_of_isPart hc (by decide)
    rw [List.cons_append, scanAfter_cons_of_ne hstar, if_pos hc]
    by_cases hnil : s = []
    · subst hnil
      have ht : ∀ d ∈ t.head?, Numeral.isPart d = false :=
        fun d hd => Bool.eq_false_iff.2 fun hpart => (h c rfl d hd).1 ⟨hc, hpart⟩
      rw [List.nil_append, scanAfter_nil, scanAfter_eq_ofRun_append ht]
    · exact ih h.of_cons hnil
  | case4 run c s hs hc ih =>
    have hstar : c = '*' → ∀ d ∈ (s ++ t).head?, d ≠ '*' := by
      rintro rfl d hd rfl
      rcases s with _ | ⟨e, s⟩
      · exact (h '*' rfl '*' hd).2 ⟨rfl, rfl⟩
      · obtain rfl : e = '*' := by simpa using hd
        exact hs s rfl rfl
    rw [List.cons_append, scanAfter_cons hstar, if_neg hc]
    by_cases hnil : s = []
    · rw [hnil, List.nil_append, scanAfter_nil, ofRun_nil, List.append_nil]
    · rw [ih h.of_cons hnil, ← List.append_assoc]

lemma scan_append_of_apart {s t : Text} (h : Apart s t) : scan (s ++ t) = scan s ++ scan t := by
  by_cases hne : s = []
  · rw [hne]
    rfl
  · exact scanAfter_append_of_apart h hne []

/-- A character that no number and no pair of stars reaches across cuts a text in two. -/
lemma scanAfter_cut {c : Char} (hp : Numeral.isPart c = false) (hc : c ≠ '*') (run s t : Text) :
    scanAfter run (s ++ c :: t) = scanAfter run s ++ (ofChar? c).toList ++ scan t := by
  fun_induction scanAfter run s with
  | case1 run => rw [List.nil_append, scanAfter_cons_of_ne hc, hp, if_neg (by decide), scan]
  | case2 run s ih =>
    rw [List.cons_append, List.cons_append, scanAfter_star_star, ih]
    simp only [List.append_assoc, List.cons_append]
  | case3 run d s h hd ih =>
    have hstar : d ≠ '*' := Numeral.ne_of_isPart hd (by decide)
    rw [List.cons_append, scanAfter_cons_of_ne hstar, if_pos hd, ih]
  | case4 run d s h hd ih =>
    have hstar : d = '*' → ∀ e ∈ (s ++ c :: t).head?, e ≠ '*' := by
      rintro hd' e he rfl
      rcases s with _ | ⟨e, s⟩
      · exact hc (by simpa using he)
      · obtain rfl : e = '*' := by simpa using he
        exact h s hd' rfl
    rw [List.cons_append, scanAfter_cons hstar, if_neg hd, ih]
    simp only [List.append_assoc]

/-- A run of digits and points that stands for itself is one number. -/
lemma scan_literal {s l t : Text} (hs : ∀ c ∈ s.getLast?, Numeral.isPart c = false)
    (hl : ∀ c ∈ l, Numeral.isPart c = true) (hne : l ≠ [])
    (ht : ∀ c ∈ t.head?, Numeral.isPart c = false) :
    scan (s ++ l ++ t) = scan s ++ number l :: scan t := by
  have hapart : Apart s (l ++ t) := by
    intro c hc d hd
    rw [List.head?_append_of_ne_nil _ hne] at hd
    have hpart : Numeral.isPart d = true := hl d (List.mem_of_mem_head? hd)
    refine ⟨fun hparts => absurd hparts.1 (by simp [hs c hc]), fun hstars => ?_⟩
    exact Numeral.ne_of_isPart hpart (by decide) hstars.2
  have hlit : scan (l ++ t) = number l :: scan t := by
    rw [scan, scanAfter_parts hl, scanAfter_eq_ofRun_append ht, List.append_nil, ofRun,
      if_neg (by simpa using hne), List.reverse_reverse]
    rfl
  rw [List.append_assoc, scan_append_of_apart hapart, hlit]

/-! ### Numbers apart -/

/-- Two tokens that are not both numbers. -/
def NotBothNumbers (k l : Token) : Prop := ¬(k.isNumber = true ∧ l.isNumber = true)

lemma isNumber_of_ofChar? {c : Char} {k : Token} (h : ofChar? c = some k) :
    k.isNumber = false := by
  unfold ofChar? at h
  split at h <;> cases h <;> rfl

/-- A token stands between any two numbers of a text without characters that are passed over. -/
lemma isChain_scanAfter {t : Text}
    (ht : ∀ c ∈ t, Numeral.isPart c = true ∨ (ofChar? c).isSome) (run : Text) :
    (scanAfter run t).IsChain NotBothNumbers := by
  have hrun : ∀ (run : Text) {k : Token} {ts : List Token}, k.isNumber = false →
      ts.IsChain NotBothNumbers → (ofRun run ++ k :: ts).IsChain NotBothNumbers := by
    intro run k ts hk hts
    have hcons : (k :: ts).IsChain NotBothNumbers :=
      List.isChain_cons.2 ⟨fun _ _ h => by simp [hk] at h, hts⟩
    rw [ofRun]
    split
    · exact hcons
    · refine List.isChain_cons.2 ⟨fun l hl h => ?_, hcons⟩
      obtain rfl : k = l := by simpa using hl
      simp [hk] at h
  fun_induction scanAfter run t with
  | case1 run =>
    unfold ofRun
    split <;> simp
  | case2 run t ih =>
    exact hrun run rfl (ih fun c hc => ht c (List.mem_cons_of_mem _ (List.mem_cons_of_mem _ hc)))
  | case3 run c t h hc ih => exact ih fun d hd => ht d (List.mem_cons_of_mem c hd)
  | case4 run c t h hc ih =>
    obtain ⟨k, hk⟩ := Option.isSome_iff_exists.1 ((ht c List.mem_cons_self).resolve_left hc)
    rw [hk, Option.toList_some, List.append_assoc]
    exact hrun run (isNumber_of_ofChar? hk) (ih fun d hd => ht d (List.mem_cons_of_mem c hd))

/-! ### The glyphs of the keypad -/

/-- The token that a character of the keypad is meant to make, numbers apart. -/
def ofGlyph? : Char → Option Token
  | '+' => some (operator .add)
  | '-' => some (operator .subtract)
  | '×' => some (operator .multiply)
  | '÷' => some (operator .divide)
  | '^' => some (operator .raise)
  | '(' => some opening
  | ')' => some closing
  | _ => none

/-- Two characters that are not both glyphs of operators. -/
def NotBothGlyphs (c d : Char) : Prop := ¬(Operator.isGlyph c = true ∧ Operator.isGlyph d = true)

lemma filter_ofRun (run : Text) : (ofRun run).filter (fun k => !k.isNumber) = [] := by
  unfold ofRun
  split <;> rfl

/-- The tokens that are no numbers, of a text that follows a number. -/
lemma filter_scanAfter_of_ne_star {c : Char} (hc : c ≠ '*') (run t : Text) :
    ∃ run', (scanAfter run (c :: t)).filter (fun k => !k.isNumber) =
      (ofChar? c).toList ++ (scanAfter run' t).filter fun k => !k.isNumber := by
  rw [scanAfter_cons_of_ne hc]
  split
  · rename_i hpart
    have hnone : ofChar? c = none := by
      unfold ofChar?
      split <;> first | rfl | exact absurd hpart (by decide)
    exact ⟨c :: run, by rw [hnone]; rfl⟩
  · refine ⟨[], ?_⟩
    have hmark : (ofChar? c).toList.filter (fun k => !k.isNumber) = (ofChar? c).toList := by
      unfold ofChar?
      split <;> rfl
    rw [List.filter_append, List.filter_append, filter_ofRun, hmark, List.nil_append]

/-- A character that is no glyph of a key is read as it is written. -/
lemma ofGlyph?_eq_ofChar? {c : Char} (h₁ : c ≠ '×') (h₂ : c ≠ '÷') (h₃ : c ≠ '^') (h₄ : c ≠ '*')
    (h₅ : c ≠ '/') : ofGlyph? c = ofChar? c := by
  unfold ofGlyph? ofChar?
  split <;> first | rfl | contradiction | skip
  split <;> first | rfl | contradiction

lemma canonicalChar_of_ne {c : Char} (h₁ : c ≠ '×') (h₂ : c ≠ '÷') (h₃ : c ≠ '^') :
    Expression.canonicalChar c = [c] := by
  unfold Expression.canonicalChar
  split <;> first | rfl | contradiction

lemma canonicalChar_of_isPart {c : Char} (hc : Numeral.isPart c = true) :
    Expression.canonicalChar c = [c] :=
  canonicalChar_of_ne (Numeral.ne_of_isPart hc (by decide)) (Numeral.ne_of_isPart hc (by decide))
    (Numeral.ne_of_isPart hc (by decide))

/-- No star comes first in the canonical form of a text that starts with neither a star nor a
glyph. -/
lemma head?_canonical_ne_star {t : Text}
    (ht : ∀ c ∈ t.head?, Operator.isGlyph c = false ∧ c ≠ '*') :
    ∀ c ∈ (Expression.canonical t).head?, c ≠ '*' := by
  rcases t with _ | ⟨d, t⟩
  · simp [Expression.canonical_nil]
  · obtain ⟨hd, hstar⟩ := ht d rfl
    have hne : ∀ g, Operator.isGlyph g = true → d ≠ g := by
      rintro g hg rfl
      exact absurd hg (by simp [hd])
    rw [Expression.canonical_cons,
      canonicalChar_of_ne (hne '×' (by decide)) (hne '÷' (by decide)) (hne '^' (by decide))]
    simpa using hstar

lemma filterMap_cons_toList {α β : Type} (f : α → Option β) (a : α) (l : List α) :
    (a :: l).filterMap f = (f a).toList ++ l.filterMap f := by
  rw [List.filterMap_cons]
  cases f a <;> rfl

/-- **One token for each glyph.**  In the canonical form of a text in which no two operator
glyphs are neighbours, and which holds no star and no stroke, the tokens apart from numbers
are those that the characters of the text are meant to make, in their order. -/
lemma filter_scanAfter_canonical {t : Text} (ht : t.IsChain NotBothGlyphs)
    (hc : ∀ c ∈ t, c ≠ '*' ∧ c ≠ '/') (run : Text) :
    (scanAfter run (Expression.canonical t)).filter (fun k => !k.isNumber) =
      t.filterMap ofGlyph? := by
  induction t generalizing run with
  | nil =>
    rw [Expression.canonical_nil, scanAfter_nil, filter_ofRun]
    rfl
  | cons c t ih =>
    have ih' := ih ht.tail fun d hd => hc d (List.mem_cons_of_mem c hd)
    rw [Expression.canonical_cons, filterMap_cons_toList]
    by_cases h₁ : c = '×'
    · have hhead : ∀ d ∈ (Expression.canonical t).head?, d ≠ '*' := by
        refine head?_canonical_ne_star fun d hd => ⟨?_, (hc d ?_).1⟩
        · have hboth := ht.rel_head? hd
          rw [h₁] at hboth
          simpa [NotBothGlyphs, show Operator.isGlyph '×' = true by decide] using hboth
        · exact List.mem_cons_of_mem c (List.mem_of_mem_head? hd)
      rw [h₁, show Expression.canonicalChar '×' = ['*'] from rfl, List.singleton_append,
        scanAfter_star hhead, List.filter_append, filter_ofRun, List.nil_append,
        List.filter_cons_of_pos (by rfl), ih' []]
      rfl
    by_cases h₂ : c = '÷'
    · obtain ⟨run', hrun⟩ :=
        filter_scanAfter_of_ne_star (c := '/') (by decide) run (Expression.canonical t)
      rw [h₂, show Expression.canonicalChar '÷' = ['/'] from rfl, List.singleton_append, hrun,
        ih' run']
      rfl
    by_cases h₃ : c = '^'
    · rw [h₃, show Expression.canonicalChar '^' = ['*', '*'] from rfl, List.cons_append,
        List.singleton_append, scanAfter_star_star, List.filter_append, filter_ofRun,
        List.nil_append, List.filter_cons_of_pos (by rfl), ih' []]
      rfl
    · obtain ⟨h₄, h₅⟩ := hc c List.mem_cons_self
      obtain ⟨run', hrun⟩ := filter_scanAfter_of_ne_star h₄ run (Expression.canonical t)
      rw [canonicalChar_of_ne h₁ h₂ h₃, List.singleton_append, hrun, ih' run',
        ofGlyph?_eq_ofChar? h₁ h₂ h₃ h₄ h₅]

end Token

end DeskCalculator
