import DeskCalculator.Keypad.Key
import DeskCalculator.Proofs.Text.Words
import Mathlib.Data.List.Forall2

/-!
# Words for keys

A key is named by the spellings of a table, and a digit by its character (`Spells`).  Spellings
overlap as texts, but no word names two keys, and so the keys of a text are determined by its words
(`ofText_eq_ok_iff`); a text has none if one of its words is no spelling, and the first such word is
what is reported (`ofText_eq_error_iff`).

The text that a key is shown with is one of its spellings, and it is a word: it is not empty and has
no blanks in it.  So the texts of any keys can be read back, with whatever blanks between them.
-/

namespace DeskCalculator

namespace Key

/-! ### Words and keys -/

/-- Whether the word names no key. -/
def isUnknown (w : Text) : Bool := (ofWord? w).isNone

lemma ofWord_of_some {w : Text} {k : Key} (h : ofWord? w = some k) : ofWord w = .ok k := by
  rw [ofWord, h]

lemma ofWord_of_none {w : Text} (h : ofWord? w = none) : ofWord w = .error ⟨w⟩ := by
  rw [ofWord, h]

/-- Reading some words fails at the first one that names no key. -/
lemma mapM_ofWord (ws : List Text) :
    ws.mapM ofWord =
      match ws.find? isUnknown with
      | some w => .error ⟨w⟩
      | none => .ok (ws.filterMap ofWord?) := by
  induction ws with
  | nil => rfl
  | cons w ws ih =>
    rw [List.mapM_cons, ih]
    cases h : ofWord? w with
    | none =>
      have hw : isUnknown w = true := by rw [isUnknown, h]; rfl
      rw [ofWord_of_none h, List.find?_cons_of_pos hw]
      rfl
    | some k =>
      have hw : ¬ isUnknown w = true := by rw [isUnknown, h]; exact Bool.false_ne_true
      rw [ofWord_of_some h, List.find?_cons_of_neg hw, List.filterMap_cons_some h]
      cases ws.find? isUnknown <;> rfl

lemma map_ofWord? {ws : List Text} (h : ws.find? isUnknown = none) :
    ws.map ofWord? = (ws.filterMap ofWord?).map some := by
  induction ws with
  | nil => rfl
  | cons w ws ih =>
    rw [List.find?_eq_none] at h
    have hrest := ih (List.find?_eq_none.2 fun v hv => h v (List.mem_cons_of_mem w hv))
    cases hw : ofWord? w with
    | none => exact absurd (by rw [isUnknown, hw]; rfl) (h w List.mem_cons_self)
    | some k => rw [List.map_cons, hw, hrest, List.filterMap_cons_some hw, List.map_cons]

/-- No key has a name that starts with a colon. -/
lemma ofWord?_colon (w : Text) : ofWord? (':' :: w) = none := by
  have hspelling : ∀ p ∈ spellings, p.1.head? ≠ some ':' := by decide
  have hlookup : spellings.lookup (':' :: w) = none := by
    refine List.lookup_eq_none_iff.2 fun p hp => bne_iff_ne.2 fun h => hspelling p hp ?_
    rw [← h]
    rfl
  unfold ofWord?
  rw [hlookup]
  cases w with
  | nil => decide
  | cons c w => rfl

/-! ### Spellings -/

/-- The word `w` is a spelling of the key `k`. -/
inductive Spells : Text → Key → Prop
  /-- It stands in the table. -/
  | listed {w : Text} {k : Key} (h : (w, k) ∈ spellings) : Spells w k
  /-- It is a digit. -/
  | digit (d : Fin 10) : Spells [d.val.digitChar] (.digit d)

/-- The word is a spelling of some key. -/
def IsSpelling (w : Text) : Prop := ∃ k, Spells w k

lemma digit?_eq_some_iff {c : Char} {d : Fin 10} : digit? c = some d ↔ c = d.val.digitChar := by
  constructor
  · intro h
    have hfound : (d.val.digitChar == c) = true :=
      List.find?_some (p := fun d : Fin 10 => d.val.digitChar == c) h
    exact (beq_iff_eq.1 hfound).symm
  · rintro rfl
    revert d
    decide

/-- No word stands twice in the table. -/
lemma lookup_spellings_of_mem : ∀ p ∈ spellings, spellings.lookup p.1 = some p.2 := by decide

lemma lookup_spellings_digit (d : Fin 10) : spellings.lookup [d.val.digitChar] = none := by
  revert d
  decide

/-- **A word names the key that it is a spelling of.** -/
lemma ofWord?_eq_some_iff {w : Text} {k : Key} : ofWord? w = some k ↔ Spells w k := by
  constructor
  · intro h
    unfold ofWord? at h
    split at h
    · rename_i found
      obtain rfl := Option.some.inj h
      obtain ⟨front, back, htable, -⟩ := List.lookup_eq_some_iff.1 found
      refine .listed ?_
      rw [htable]
      exact List.mem_append_right _ List.mem_cons_self
    · obtain ⟨d, hd, rfl⟩ := Option.map_eq_some_iff.1 h
      obtain rfl := digit?_eq_some_iff.1 hd
      exact .digit d
    · cases h
  · rintro (hlisted | d)
    · unfold ofWord?
      rw [show spellings.lookup w = some k from lookup_spellings_of_mem _ hlisted]
    · unfold ofWord?
      rw [lookup_spellings_digit]
      exact congrArg (Option.map Key.digit) (digit?_eq_some_iff.2 rfl)

lemma isUnknown_eq_true_iff {w : Text} : isUnknown w = true ↔ ¬IsSpelling w := by
  rw [isUnknown, Option.isNone_iff_eq_none, Option.eq_none_iff_forall_ne_some, IsSpelling,
    not_exists]
  exact forall_congr' fun k => not_congr ofWord?_eq_some_iff

/-! ### The keys of a text -/

lemma ofText_eq_ok_iff {t : Text} {ks : List Key} :
    ofText t = .ok ks ↔ List.Forall₂ Spells t.words ks := by
  rw [ofText]
  constructor
  · intro h
    rw [mapM_ofWord] at h
    split at h
    · cases h
    · rename_i hknown
      obtain rfl := Except.ok.inj h
      have hnamed := map_ofWord? hknown
      rw [← List.forall₂_eq_eq_eq, List.forall₂_map_left_iff, List.forall₂_map_right_iff] at hnamed
      exact hnamed.imp fun w k hk => ofWord?_eq_some_iff.1 hk
  · intro h
    generalize t.words = ws at h
    induction h with
    | nil => rfl
    | cons hk _ ih =>
      rw [List.mapM_cons, ofWord_of_some (ofWord?_eq_some_iff.2 hk), ih]
      rfl

lemma ofText_eq_error_iff {t : Text} {e : UnknownKey} :
    ofText t = .error e ↔ ∃ before after, t.words = before ++ e.word :: after ∧
      (∀ w ∈ before, IsSpelling w) ∧ ¬IsSpelling e.word := by
  have hknown : ∀ w, (!isUnknown w) = true ↔ IsSpelling w := by
    intro w
    rw [Bool.not_eq_true', ← Bool.not_eq_true, isUnknown_eq_true_iff, not_not]
  rw [ofText, mapM_ofWord]
  constructor
  · intro h
    split at h
    · rename_i w hfind
      obtain rfl := Except.error.inj h
      obtain ⟨hw, before, after, heq, hbefore⟩ := List.find?_eq_some_iff_append.1 hfind
      exact ⟨before, after, heq, fun v hv => (hknown v).1 (hbefore v hv),
        isUnknown_eq_true_iff.1 hw⟩
    · cases h
  · rintro ⟨before, after, heq, hbefore, hw⟩
    have hfind : t.words.find? isUnknown = some e.word :=
      List.find?_eq_some_iff_append.2 ⟨isUnknown_eq_true_iff.2 hw, before, after, heq,
        fun v hv => (hknown v).2 (hbefore v hv)⟩
    rw [hfind]

/-- A text has no keys exactly if one of its words is no spelling. -/
lemma exists_ofText_eq_error_iff {t : Text} :
    (∃ e, ofText t = .error e) ↔ ∃ w ∈ t.words, ¬IsSpelling w := by
  constructor
  · rintro ⟨e, he⟩
    obtain ⟨before, after, heq, -, hw⟩ := ofText_eq_error_iff.1 he
    exact ⟨e.word, by simp [heq], hw⟩
  · rintro ⟨w, hmem, hw⟩
    cases h : ofText t with
    | error e => exact ⟨e, rfl⟩
    | ok ks =>
      -- every word would be a spelling of the key at its place
      obtain ⟨i, hi, rfl⟩ := List.mem_iff_getElem.1 hmem
      have hall := ofText_eq_ok_iff.1 h
      have hi' : i < ks.length := hall.length_eq ▸ hi
      exact absurd ⟨_, hall.get hi hi'⟩ hw

/-! ### Printed keys -/

lemma spells_text (k : Key) : Spells k.text k := ofWord?_eq_some_iff.1 (ofWord?_text k)

lemma text_ne_nil (k : Key) : k.text ≠ [] := by
  cases k with
  | function f => cases f <;> decide
  | _ => exact List.cons_ne_nil _ _

lemma isBlank_of_mem_text (k : Key) : ∀ c ∈ k.text, Text.isBlank c = false := by
  have hall : (k.text.all fun c => !Text.isBlank c) = true := by
    cases k with
    | digit d => revert d; decide
    | operator op => cases op <;> decide
    | function f => cases f <;> decide
    | _ => decide
  intro c hc
  simpa using List.all_eq_true.1 hall c hc

/-- The texts of some keys, each with what stands behind it. -/
def printed (parts : List (Key × Text)) : Text :=
  parts.flatMap fun p => p.1.text ++ p.2

/-- Behind every key there are blanks, perhaps none behind the last one. -/
structure SetApart (parts : List (Key × Text)) : Prop where
  isBlank : ∀ p ∈ parts, ∀ c ∈ p.2, Text.isBlank c = true
  ne_nil : ∀ p ∈ parts.dropLast, p.2 ≠ []

lemma SetApart.tail {p : Key × Text} {parts : List (Key × Text)} (h : SetApart (p :: parts)) :
    SetApart parts where
  isBlank q hq := h.isBlank q (List.mem_cons_of_mem p hq)
  ne_nil q hq := by
    refine h.ne_nil q ?_
    rw [List.dropLast_cons_of_ne_nil (List.ne_nil_of_mem (List.dropLast_subset parts hq))]
    exact List.mem_cons_of_mem p hq

/-- Behind a key, the text ends or goes on with a blank. -/
lemma SetApart.isBlank_head {p : Key × Text} {parts : List (Key × Text)}
    (h : SetApart (p :: parts)) : ∀ c ∈ (p.2 ++ printed parts).head?, Text.isBlank c = true := by
  intro c hc
  rcases parts with _ | ⟨q, parts⟩
  · rw [printed, List.flatMap_nil, List.append_nil] at hc
    exact h.isBlank p List.mem_cons_self c (List.mem_of_mem_head? hc)
  · have hne : p.2 ≠ [] := h.ne_nil p (by simp)
    rw [List.head?_append_of_ne_nil _ hne] at hc
    exact h.isBlank p List.mem_cons_self c (List.mem_of_mem_head? hc)

lemma SetApart.spaced {parts : List (Key × Text)} (h : SetApart parts) {front : Text}
    (hfront : ∀ c ∈ front, Text.isBlank c = true) :
    Text.Spaced (parts.map fun p => p.1.text) (front ++ printed parts) := by
  induction parts generalizing front with
  | nil => exact .blanks (by simpa [printed] using hfront)
  | cons p parts ih =>
    -- what stands behind the first key stands in front of the others
    have hrest := ih h.tail (h.isBlank p List.mem_cons_self)
    have hword := Text.Spaced.word hfront (text_ne_nil p.1) (isBlank_of_mem_text p.1)
      h.isBlank_head hrest
    rwa [← List.append_assoc p.1.text] at hword

lemma ofText_printed {parts : List (Key × Text)} (h : SetApart parts) {front : Text}
    (hfront : ∀ c ∈ front, Text.isBlank c = true) :
    ofText (front ++ printed parts) = .ok (parts.map Prod.fst) := by
  rw [ofText_eq_ok_iff, (h.spaced hfront).words_eq, List.forall₂_map_left_iff,
    List.forall₂_map_right_iff]
  exact List.forall₂_same.2 fun p _ => spells_text p.1

/-- **Keys are read back from their texts, and the first word that is none is reported.**  The texts
of any keys, with blanks between them and perhaps in front and behind, are read as these keys.  The
words of a text are what it is laid out as with blanks.  Reading gives the keys that they are
spellings of; it fails if and only if one of them is no spelling, and the error then has the first
such word, as it stands in the text. -/
theorem ofText_reads_spellings :
    (∀ (parts : List (Key × Text)) (front : Text), SetApart parts →
      (∀ c ∈ front, Text.isBlank c = true) →
      ofText (front ++ printed parts) = .ok (parts.map Prod.fst)) ∧
    ∀ t : Text, Text.Spaced t.words t ∧
      (∀ ks, ofText t = .ok ks ↔ List.Forall₂ Spells t.words ks) ∧
      ((∃ e, ofText t = .error e) ↔ ∃ w ∈ t.words, ¬IsSpelling w) ∧
      ∀ e, ofText t = .error e ↔ ∃ before after, t.words = before ++ e.word :: after ∧
        (∀ w ∈ before, IsSpelling w) ∧ ¬IsSpelling e.word :=
  ⟨fun _ _ h hfront => ofText_printed h hfront, fun t => ⟨Text.spaced_words t,
    fun _ => ofText_eq_ok_iff, exists_ofText_eq_error_iff, fun _ => ofText_eq_error_iff⟩⟩

/-- Five keys with different blanks around them, and a text in which parentheses stand apart. -/
theorem ofText_reads_product :
    ofText ("\u2003".toList ++ printed [(.digit 1, " \u3000".toList),
        (.operator .multiply, "\t".toList), (.parenthesis, "\n\u00a0".toList),
        (.function .square, " ".toList), (.equals, [])]) =
      .ok [.digit 1, .operator .multiply, .parenthesis, .function .square, .equals] ∧
    ofText "1 2 + ( ) =".toList = .error ⟨"(".toList⟩ := by
  obtain ⟨hprinted, hread⟩ := ofText_reads_spellings
  refine ⟨hprinted _ _ ⟨?_, by decide⟩ (List.all_eq_true.1 (by decide)), ?_⟩
  · simp only [List.forall_mem_cons]
    refine ⟨?_, ?_, ?_, ?_, ?_, by simp⟩
    all_goals exact List.all_eq_true.1 (by decide)
  · refine ((hread _).2.2.2 _).2 ⟨[['1'], ['2'], ['+']], [[')'], ['=']], by decide, ?_,
      isUnknown_eq_true_iff.1 (by decide)⟩
    simp only [List.forall_mem_cons]
    exact ⟨⟨_, spells_text (.digit 1)⟩, ⟨_, spells_text (.digit 2)⟩,
      ⟨_, spells_text (.operator .add)⟩, by simp⟩

end Key

end DeskCalculator
