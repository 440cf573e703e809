import DeskCalculator.Text.Blank
import Mathlib.Data.List.Basic
import Mathlib.Tactic.Lemma

/-!
# The words of a text

A text is laid out as words with blanks between them, and perhaps more blanks in front and behind
(`Spaced`).  There is one way to see a text so, and its words are those that are found by splitting
it at blanks (`words_eq_iff`); which blanks they are, and how many, does not matter.
-/

namespace DeskCalculator

namespace Text

/-- The text consists of the given words, with blanks between them, and perhaps with blanks in front
of them and behind. -/
inductive Spaced : List Text → Text → Prop
  | blanks {b : Text} (hb : ∀ c ∈ b, isBlank c = true) : Spaced [] b
  | word {b w t : Text} {ws : List Text} (hb : ∀ c ∈ b, isBlank c = true) (hne : w ≠ [])
      (hw : ∀ c ∈ w, isBlank c = false) (ht : ∀ c ∈ t.head?, isBlank c = true)
      (h : Spaced ws t) : Spaced (w :: ws) (b ++ (w ++ t))

/-! ### Splitting at blanks -/

/-- A blank ends the words in front of it. -/
lemma words_append_cons {c : Char} (hc : isBlank c = true) (s t : Text) :
    words (s ++ c :: t) = words s ++ words t := by
  rw [words, List.splitOnP_append_cons s t hc, List.filter_append]
  rfl

/-- Blanks in front belong to no word. -/
lemma words_append_of_blank {b : Text} (hb : ∀ c ∈ b, isBlank c = true) (t : Text) :
    words (b ++ t) = words t := by
  induction b with
  | nil => rfl
  | cons c b ih =>
    rw [List.cons_append, ← List.nil_append (c :: (b ++ t)),
      words_append_cons (hb c List.mem_cons_self), ih fun d hd => hb d (List.mem_cons_of_mem c hd)]
    rfl

lemma words_of_blank {b : Text} (hb : ∀ c ∈ b, isBlank c = true) : words b = [] := by
  have h := words_append_of_blank hb []
  rwa [List.append_nil] at h

/-- Blanks behind belong to no word. -/
lemma words_append_blank {b : Text} (hb : ∀ c ∈ b, isBlank c = true) (t : Text) :
    words (t ++ b) = words t := by
  rcases b with _ | ⟨c, b⟩
  · rw [List.append_nil]
  · rw [words_append_cons (hb c List.mem_cons_self),
      words_of_blank fun d hd => hb d (List.mem_cons_of_mem c hd), List.append_nil]

/-- A text without blanks that is not empty is one word. -/
lemma words_of_letter {w : Text} (hne : w ≠ []) (hw : ∀ c ∈ w, isBlank c = false) :
    words w = [w] := by
  have hsplit : w.splitOnP isBlank = [w] :=
    List.splitOnP_eq_singleton fun c hc => by simp [hw c hc]
  rw [words, hsplit]
  simp [hne]

lemma words_append {w t : Text} (hne : w ≠ []) (hw : ∀ c ∈ w, isBlank c = false)
    (ht : ∀ c ∈ t.head?, isBlank c = true) : words (w ++ t) = w :: words t := by
  rcases t with _ | ⟨c, t⟩
  · rw [List.append_nil, words_of_letter hne hw]
    rfl
  · have hc : isBlank c = true := ht c rfl
    rw [words_append_cons hc, words_of_letter hne hw, ← List.nil_append (c :: t),
      words_append_cons hc]
    rfl

/-! ### Texts laid out as words -/

lemma Spaced.words_eq {ws : List Text} {t : Text} (h : Spaced ws t) : t.words = ws := by
  induction h with
  | blanks hb => exact words_of_blank hb
  | word hb hne hw ht _ ih => rw [words_append_of_blank hb, words_append hne hw ht, ih]

lemma Spaced.cons_blank {ws : List Text} {t : Text} {c : Char} (hc : isBlank c = true)
    (h : Spaced ws t) : Spaced ws (c :: t) := by
  have hcons : ∀ {b : Text}, (∀ d ∈ b, isBlank d = true) → ∀ d ∈ c :: b, isBlank d = true := by
    intro b hb d hd
    rcases List.mem_cons.1 hd with rfl | hd
    · exact hc
    · exact hb d hd
  cases h with
  | blanks hb => exact .blanks (hcons hb)
  | word hb hne hw ht h => exact .word (hcons hb) hne hw ht h

/-- A character that is no blank starts a word, or it belongs to the one that it stands in front
of. -/
lemma Spaced.cons_letter {ws : List Text} {t : Text} {c : Char} (hc : isBlank c = false)
    (h : Spaced ws t) : ∃ w us, Spaced ((c :: w) :: us) (c :: t) := by
  have hletter : ∀ d ∈ [c], isBlank d = false := fun d hd => by rwa [List.mem_singleton.1 hd]
  by_cases ht : ∀ d ∈ t.head?, isBlank d = true
  · exact ⟨[], ws, .word (b := []) (w := [c]) (by simp) (by simp) hletter ht h⟩
  · cases h with
    | blanks hb => exact absurd (fun d hd => hb d (List.mem_of_mem_head? hd)) ht
    | @word b w t us hb hne hw hrest h =>
      rcases b with _ | ⟨d, b⟩
      · refine ⟨w, us, .word (b := []) (w := c :: w) (by simp) (by simp) ?_ hrest h⟩
        intro d hd
        rcases List.mem_cons.1 hd with rfl | hd
        · exact hc
        · exact hw d hd
      · refine absurd (fun d' hd' => ?_) ht
        obtain rfl : d = d' := by simpa using hd'
        exact hb d List.mem_cons_self

/-- Every text is laid out as words. -/
lemma spaced_words (t : Text) : Spaced t.words t := by
  -- a layout of the rest shows whether a letter in front of it begins a word of its own
  obtain ⟨ws, h⟩ : ∃ ws, Spaced ws t := by
    induction t with
    | nil => exact ⟨[], .blanks (by simp)⟩
    | cons c t ih =>
      obtain ⟨ws, h⟩ := ih
      cases hc : isBlank c with
      | true => exact ⟨ws, h.cons_blank hc⟩
      | false =>
        obtain ⟨w, us, h⟩ := h.cons_letter hc
        exact ⟨_, h⟩
  rwa [h.words_eq]

/-- **The words of a text.**  They are those that the text is laid out as. -/
lemma words_eq_iff {ws : List Text} {t : Text} : t.words = ws ↔ Spaced ws t := by
  constructor
  · rintro rfl
    exact spaced_words t
  · exact Spaced.words_eq

/-- The first word of a text that starts with a character that is no blank starts with it. -/
lemma words_cons {c : Char} (hc : isBlank c = false) (t : Text) :
    ∃ w ws, words (c :: t) = (c :: w) :: ws := by
  obtain ⟨w, ws, h⟩ := (spaced_words t).cons_letter hc
  exact ⟨w, ws, h.words_eq⟩

/-! ### Blanks at the ends -/

/-- A text is its trimmed form with blanks on both sides. -/
lemma exists_blanks_trim (t : Text) :
    ∃ b b' : Text, (∀ c ∈ b, isBlank c = true) ∧ (∀ c ∈ b', isBlank c = true) ∧
      t = b ++ (t.trim ++ b') := by
  have hblank : ∀ s : Text, ∀ c ∈ s.takeWhile isBlank, isBlank c = true :=
    fun _ c hc => List.all_eq_true.1 List.all_takeWhile c hc
  refine ⟨t.takeWhile isBlank, ((t.dropWhile isBlank).reverse.takeWhile isBlank).reverse,
    hblank t, fun c hc => hblank _ c (List.mem_reverse.1 hc), ?_⟩
  rw [trim, ← List.reverse_append, List.takeWhile_append_dropWhile, List.reverse_reverse,
    List.takeWhile_append_dropWhile]

/-- The blanks at the ends of a text do not count for its words. -/
lemma words_trim (t : Text) : t.trim.words = t.words := by
  obtain ⟨b, b', hb, hb', ht⟩ := exists_blanks_trim t
  conv_rhs => rw [ht]
  rw [words_append_of_blank hb, words_append_blank hb']

end Text

end DeskCalculator
