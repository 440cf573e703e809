import DeskCalculator.Proofs.Expression.Primitive
import DeskCalculator.Proofs.Expression.Scanning

/-!
# Glyphs and the stars that they become

The keys for multiplication and for powers both become stars in canonical form, one and two of them,
and the scanner takes stars in pairs from the left.  `readGlyphs` reads the glyphs one by one
instead, without a canonical form.  The main statement says for which texts the two agree: exactly
for those in which no `×` stands directly in front of another `×` or of a `^`
(`scan_canonical_eq_readGlyphs_iff`).  In any text, a run of such glyphs is read as its stars are:
pairs first, and a multiplication at the end if one star is left.
-/

namespace DeskCalculator

namespace Token

open Expression (canonical canonical_cons canonical_append canonicalChar)

/-! ### Reading glyph by glyph -/

/-- The token that the glyph of a key stands for, if arithmetic has another character for it. -/
def ofKeyGlyph? : Char → Option Token
  | '×' => some (operator .multiply)
  | '÷' => some (operator .divide)
  | '^' => some (operator .raise)
  | _ => none

/-- The tokens of a text with glyphs that follows the text `before` without any, last character
first. -/
def readGlyphsAfter (before : Text) : Text → List Token
  | [] => scan before.reverse
  | c :: t =>
    match ofKeyGlyph? c with
    | some k => scan before.reverse ++ k :: readGlyphsAfter [] t
    | none => readGlyphsAfter (c :: before) t

/-- The tokens of a text in which each glyph is read by itself, and what stands between glyphs as it
is scanned. -/
def readGlyphs (t : Text) : List Token := readGlyphsAfter [] t

/-- Two neighbours of which the first one becomes a star, and the second one starts with a star. -/
def Merges (c d : Char) : Prop := c = '×' ∧ (d = '×' ∨ d = '^')

instance : DecidableRel Merges := fun _ _ => inferInstanceAs (Decidable (_ ∧ _))

lemma canonicalChar_of_ofKeyGlyph? {c : Char} (h : ofKeyGlyph? c = none) :
    canonicalChar c = [c] := by
  unfold ofKeyGlyph? at h
  split at h
  case h_4 h₁ h₂ h₃ => exact canonicalChar_of_ne h₁ h₂ h₃
  all_goals cases h

/-- The canonical form starts with a star only where a glyph stands for one. -/
lemma head?_canonical_eq_star {t : Text} (ht : '*' ∉ t) (h : '*' ∈ (canonical t).head?) :
    ∃ d ∈ t.head?, d = '×' ∨ d = '^' := by
  rcases t with _ | ⟨d, t⟩
  · cases h
  refine ⟨d, rfl, ?_⟩
  by_contra hd
  rw [not_or] at hd
  rw [canonical_cons] at h
  by_cases hdivide : d = '÷'
  · subst hdivide
    exact absurd (Option.some.inj h) (by decide)
  · rw [canonicalChar_of_ne hd.1 hdivide hd.2] at h
    obtain rfl : d = '*' := by simpa using h
    exact ht List.mem_cons_self

lemma exists_canonical_eq_star_cons {d : Char} (hd : d = '×' ∨ d = '^') (t : Text) :
    ∃ u, canonical (d :: t) = '*' :: u := by
  rcases hd with rfl | rfl
  · exact ⟨canonical t, rfl⟩
  · exact ⟨'*' :: canonical t, rfl⟩

section

variable {before t : Text}

/-- Stars behind a text that does not end with a star are read apart from it. -/
lemma scan_append_star (hb : '*' ∉ before.getLast?) (u : Text) :
    scan (before ++ '*' :: u) = scan before ++ scan ('*' :: u) := by
  refine scan_append_of_apart fun c hc d hd => ?_
  obtain rfl : '*' = d := by simpa using hd
  refine ⟨fun hparts => absurd hparts.2 (by decide), fun hstars => ?_⟩
  rw [hstars.1] at hc
  exact hb hc

/-- A glyph that merges with nothing behind it makes its token. -/
lemma scan_append_glyph {c : Char} {k : Token} (hk : ofKeyGlyph? c = some k)
    (hb : '*' ∉ before.getLast?)
    (ht : c = '×' → ∀ d ∈ (canonical t).head?, d ≠ '*') :
    scan (before ++ canonical (c :: t)) = scan before ++ k :: scan (canonical t) := by
  unfold ofKeyGlyph? at hk
  split at hk
  · obtain rfl := Option.some.inj hk
    refine (scan_append_star hb (canonical t)).trans (congrArg (scan before ++ ·) ?_)
    exact scanAfter_star (ht rfl) []
  · obtain rfl := Option.some.inj hk
    have hcut := scanAfter_cut (c := '/') (by decide) (by decide) [] before (canonical t)
    rwa [List.append_assoc] at hcut
  · obtain rfl := Option.some.inj hk
    refine (scan_append_star hb ('*' :: canonical t)).trans (congrArg (scan before ++ ·) ?_)
    exact scanAfter_star_star [] (canonical t)
  · cases hk

/-- A `×` in front of a glyph that starts with a star makes a power with the first star of it. -/
lemma scan_append_merged (hb : '*' ∉ before.getLast?) {d : Char} (hd : d = '×' ∨ d = '^') :
    ∃ ts, scan (before ++ canonical ('×' :: d :: t)) = scan before ++ operator .raise :: ts := by
  obtain ⟨u, hu⟩ := exists_canonical_eq_star_cons hd t
  refine ⟨scan u, ?_⟩
  rw [canonical_cons, hu]
  refine (scan_append_star hb ('*' :: u)).trans (congrArg (scan before ++ ·) ?_)
  exact scanAfter_star_star [] u

/-- The scanner reads the canonical form glyph by glyph exactly if no glyph merges with the next
one. -/
lemma scan_canonical_eq_readGlyphsAfter_iff (ht : '*' ∉ t)
    (hb : ∀ c ∈ before, ofKeyGlyph? c = none) (hstar : '*' ∉ before) :
    scan (before.reverse ++ canonical t) = readGlyphsAfter before t ↔
      t.IsChain fun c d => ¬Merges c d := by
  induction t generalizing before with
  | nil => simp [canonical, readGlyphsAfter]
  | cons c t ih =>
    have ht' : '*' ∉ t := fun h => ht (List.mem_cons_of_mem c h)
    have hstar' : '*' ∉ before.reverse.getLast? :=
      fun h => hstar (List.mem_reverse.1 (List.mem_of_mem_getLast? h))
    rw [List.isChain_cons, readGlyphsAfter]
    cases hk : ofKeyGlyph? c with
    | none =>
      have hc : c ≠ '*' := fun h => ht (by rw [h]; exact List.mem_cons_self)
      have hmerge : ∀ d ∈ t.head?, ¬Merges c d := by
        rintro d - ⟨rfl, -⟩
        cases hk
      have hcopied := @ih (c :: before) ht' (by simpa [hk] using hb)
        (by simpa [Ne.symm hc] using hstar)
      rw [List.reverse_cons, List.append_assoc] at hcopied
      rw [canonical_cons, canonicalChar_of_ofKeyGlyph? hk, and_iff_right hmerge]
      exact hcopied
    | some k =>
      have hrest := @ih [] ht' (by simp) (by simp)
      dsimp only
      by_cases hmerge : ∃ d ∈ t.head?, Merges c d
      · -- the two glyphs make a power, but the first one is read as a multiplication
        obtain ⟨d, hd, rfl, hglyph⟩ := hmerge
        obtain ⟨t, rfl⟩ := List.head?_eq_some_iff.1 hd
        obtain rfl : operator .multiply = k := Option.some.inj hk
        obtain ⟨ts, hts⟩ := scan_append_merged (t := t) hstar' hglyph
        refine iff_of_false (fun heq => ?_) fun h => h.1 d rfl ⟨rfl, hglyph⟩
        rw [hts, List.append_right_inj] at heq
        cases heq
      · push Not at hmerge
        have hfirst : c = '×' → ∀ d ∈ (canonical t).head?, d ≠ '*' := by
          rintro rfl d hd rfl
          obtain ⟨e, he, hglyph⟩ := head?_canonical_eq_star ht' hd
          exact hmerge e he ⟨rfl, hglyph⟩
        rw [scan_append_glyph hk hstar' hfirst, List.append_right_inj, List.cons_inj_right,
          and_iff_right hmerge]
        exact hrest

end

/-! ### Runs of glyphs that become stars -/

/-- The number of stars that a run of glyphs becomes. -/
def stars (r : Text) : Nat := r.count '×' + 2 * r.count '^'

lemma canonical_run {r : Text} (hr : ∀ c ∈ r, c = '×' ∨ c = '^') :
    canonical r = List.replicate (stars r) '*' := by
  induction r with
  | nil => rfl
  | cons c r ih =>
    rw [canonical_cons, ih fun d hd => hr d (List.mem_cons_of_mem c hd)]
    rcases hr c List.mem_cons_self with rfl | rfl
    · have hstars : stars ('×' :: r) = stars r + 1 := by
        simp only [stars, List.count_cons_self, List.count_cons_of_ne (show '×' ≠ '^' by decide)]
        omega
      rw [hstars, List.replicate_succ]
      rfl
    · have hstars : stars ('^' :: r) = stars r + 2 := by
        simp only [stars, List.count_cons_self, List.count_cons_of_ne (show '^' ≠ '×' by decide)]
        omega
      rw [hstars, List.replicate_succ, List.replicate_succ]
      rfl

/-- Stars are taken in pairs from the left. -/
lemma scan_replicate_star {t : Text} (ht : ∀ c ∈ t.head?, c ≠ '*') (k : Nat) :
    scan (List.replicate k '*' ++ t) =
      List.replicate (k / 2) (operator .raise) ++
        (List.replicate (k % 2) (operator .multiply) ++ scan t) := by
  induction k using Nat.twoStepInduction with
  | zero => rfl
  | one => exact scanAfter_star ht []
  | more k ih _ =>
    have hhalf : (k + 2) / 2 = k / 2 + 1 := by omega
    have hrest : (k + 2) % 2 = k % 2 := by omega
    rw [hhalf, hrest, List.replicate_succ, List.replicate_succ, List.replicate_succ]
    exact (scanAfter_star_star [] _).trans (congrArg (operator .raise :: ·) ih)

/-- The canonical form ends with a star only where a glyph stands for one. -/
lemma getLast?_canonical_ne_star {p : Text} (hp : '*' ∉ p)
    (hlast : ∀ c ∈ p.getLast?, c ≠ '×' ∧ c ≠ '^') : '*' ∉ (canonical p).getLast? := by
  rcases List.eq_nil_or_concat p with rfl | ⟨p, c, rfl⟩
  · simp [canonical]
  rw [List.concat_eq_append] at hp hlast ⊢
  obtain ⟨htimes, hpower⟩ := hlast c List.getLast?_concat
  rw [canonical_append, canonical_cons]
  by_cases hdivide : c = '÷'
  · subst hdivide
    rw [show canonicalChar '÷' ++ canonical [] = ['/'] from rfl, List.getLast?_concat]
    decide
  · rw [canonicalChar_of_ne htimes hdivide hpower,
      show [c] ++ canonical [] = [c] from rfl, List.getLast?_concat]
    rintro h
    obtain rfl : c = '*' := Option.some.inj h
    exact hp (List.mem_append_right p List.mem_cons_self)

/-- A longest run of the glyphs that become stars is read apart from what stands around it. -/
lemma scan_canonical_glyphs {p r s : Text} (hp : '*' ∉ p) (hs : '*' ∉ s) (hne : r ≠ [])
    (hr : ∀ c ∈ r, c = '×' ∨ c = '^') (hlast : ∀ c ∈ p.getLast?, c ≠ '×' ∧ c ≠ '^')
    (hhead : ∀ c ∈ s.head?, c ≠ '×' ∧ c ≠ '^') :
    scan (canonical (p ++ (r ++ s))) =
      scan (canonical p) ++ (List.replicate (stars r / 2) (operator .raise) ++
        (List.replicate (stars r % 2) (operator .multiply) ++ scan (canonical s))) := by
  have hbehind : ∀ c ∈ (canonical s).head?, c ≠ '*' := by
    rintro c hc rfl
    obtain ⟨d, hd, hglyph⟩ := head?_canonical_eq_star hs hc
    exact hglyph.elim (hhead d hd).1 (hhead d hd).2
  obtain ⟨u, hu⟩ : ∃ u, canonical (r ++ s) = '*' :: u := by
    obtain ⟨d, r, rfl⟩ := List.exists_cons_of_ne_nil hne
    exact exists_canonical_eq_star_cons (hr d List.mem_cons_self) (r ++ s)
  have hrun : scan (canonical (r ++ s)) = List.replicate (stars r / 2) (operator .raise) ++
      (List.replicate (stars r % 2) (operator .multiply) ++ scan (canonical s)) := by
    rw [canonical_append, canonical_run hr, scan_replicate_star hbehind]
  rw [canonical_append, hu, scan_append_star (getLast?_canonical_ne_star hp hlast), ← hu, hrun]

/-- **Glyphs are read one by one unless their stars meet.**  In a text without stars, the scanner
makes of the canonical form one token for each glyph, `×`, `÷` and `^` alike, and of everything
else what it makes of it anyway, exactly if no `×` stands directly in front of another `×` or of a
`^`.  In any such text, a longest run of `×` and `^` is read by its stars, of which a `×` is one
and a `^` two: every two of them are a power, and one that is left at the end is a
multiplication. -/
theorem scan_canonical_eq_readGlyphs_iff {t : Text} (ht : '*' ∉ t) :
    (scan (canonical t) = readGlyphs t ↔
      t.IsChain fun c d => ¬(c = '×' ∧ (d = '×' ∨ d = '^'))) ∧
    ∀ p r s, t = p ++ (r ++ s) → r ≠ [] → (∀ c ∈ r, c = '×' ∨ c = '^') →
      (∀ c ∈ p.getLast?, c ≠ '×' ∧ c ≠ '^') → (∀ c ∈ s.head?, c ≠ '×' ∧ c ≠ '^') →
      let k := r.count '×' + 2 * r.count '^'
      scan (canonical t) =
        scan (canonical p) ++ (List.replicate (k / 2) (operator .raise) ++
          (List.replicate (k % 2) (operator .multiply) ++ scan (canonical s))) := by
  refine ⟨@scan_canonical_eq_readGlyphsAfter_iff [] t ht (by simp) (by simp), ?_⟩
  rintro p r s rfl hne hr hlast hhead
  rw [List.mem_append, List.mem_append, not_or, not_or] at ht
  exact scan_canonical_glyphs ht.1 ht.2.2 hne hr hlast hhead

/-- A power of a product has its glyphs read one by one, and the four stars of `×^×` are two
powers. -/
theorem scan_canonical_of_power_of_product :
    scan (canonical "2^×3÷4".toList) = readGlyphs "2^×3÷4".toList ∧
      scan (canonical "2×^×3".toList) =
        [number ['2'], operator .raise, operator .raise, number ['3']] := by
  refine ⟨(scan_canonical_eq_readGlyphs_iff (by decide)).1.2 (by decide), ?_⟩
  have hrun := (scan_canonical_eq_readGlyphs_iff (t := "2×^×3".toList) (by decide)).2 ['2']
    "×^×".toList ['3'] rfl (by decide) (by simp) (by simp) (by simp)
  exact hrun

/-- Two signs for multiplication in a row make a power. -/
theorem scan_canonical_of_double_times :
    '*' ∉ "2××3".toList ∧
      scan (canonical "2××3".toList) = [number ['2'], operator .raise, number ['3']] ∧
      readGlyphs "2××3".toList =
        [number ['2'], operator .multiply, operator .multiply, number ['3']] := by
  decide

end Token

end DeskCalculator
