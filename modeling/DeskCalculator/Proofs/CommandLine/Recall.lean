import DeskCalculator.CommandLine.Conversation
import DeskCalculator.Proofs.Number.DecimalText
import DeskCalculator.Proofs.Session.Keeping
import DeskCalculator.Proofs.Text.Words

/-!
# Rows of the history

In a conversation the history is listed newest first, in rows that are numbered from one, and an
entry is brought back by the number of its row.  The two commands go over the ledger in opposite
directions: a listing takes the entries from the newest one on, and recalling counts from the oldest
one to the place that the row stands for.  The main statement is that they mean the same entry, for
every word that may stand for a number, and that a row which does not exist changes nothing
(`recall_row`).

A row is one line, because no line ends in what a conversation enters in the ledger: a conversation
does nothing to its session but what can be done on the keypad (`exists_acts_converse`).
-/

namespace DeskCalculator

open Decimal (AllDigits allDigits_toDigits)

namespace Text

/-- No word of a text has a blank in it. -/
lemma isBlank_of_mem_words {t w : Text} (hw : w ∈ t.words) : ∀ c ∈ w, isBlank c = false := by
  obtain ⟨ws, hws, hspaced⟩ : ∃ ws, w ∈ ws ∧ Spaced ws t := ⟨_, hw, spaced_words t⟩
  clear hw
  induction hspaced with
  | blanks => cases hws
  | word _ _ hletters _ _ ih =>
    rcases List.mem_cons.1 hws with rfl | hws
    · exact hletters
    · exact ih hws

end Text

/-! ### Single lines -/

/-- The text is a single line. -/
def IsLine (t : Text) : Prop := '\n' ∉ t

instance : DecidablePred IsLine := fun _ => inferInstanceAs (Decidable (_ ∉ _))

namespace IsLine

variable {s t : Text}

lemma append (hs : IsLine s) (ht : IsLine t) : IsLine (s ++ t) := fun h =>
  (List.mem_append.1 h).elim hs ht

lemma concat (ht : IsLine t) {c : Char} (hc : c ≠ '\n') : IsLine (t ++ [c]) :=
  ht.append fun h => hc (List.mem_singleton.1 h).symm

lemma of_allDigits (ht : AllDigits t) : IsLine t := fun h => absurd (ht _ h) (by decide)

lemma display (x : Float) : IsLine (Display.text x) := fun h =>
  absurd (Display.isWritten_of_mem_text h) (by simp [Display.IsWritten]; decide)

lemma dropLast (ht : IsLine t) : IsLine t.dropLast := fun h => ht (List.dropLast_subset t h)

lemma glyph (ht : IsLine t) (op : Operator) : IsLine (t ++ [op.glyph]) :=
  ht.concat (by cases op <;> decide)

end IsLine

/-- No key ends a line. -/
lemma keeps_isLine : Keeps IsLine IsLine where
  nil := List.not_mem_nil
  shown := IsLine.display
  error := by decide
  result _ h := h
  dropLast _ h := h.dropLast
  part _ _ h hc := h.concat (Numeral.ne_of_isPart hc (by decide))
  parenthesis _ h := h.concat (by split <;> decide)
  continued _ op h := h.glyph op
  appended _ op h _ := h.glyph op
  replaced _ op h _ := h.dropLast.glyph op

namespace CommandLine

/-! ### What a conversation does to its session -/

lemma act_of_select? {s t : Session} {i : Nat} (h : s.select? i = some t) :
    s.act (.select i) = t := by
  rw [Session.act, h]
  rfl

lemma exists_acts_restore? {s t : Session} {n : Nat} (h : restore? s n = some t) :
    ∃ as, t = s.acts as := by
  unfold restore? at h
  split at h
  · exact ⟨[.select (s.ledger.size - n)], (act_of_select? h).symm⟩
  · cases h

lemma exists_acts_toCommand (settings : Settings) (s : Session) (command : Text) :
    ∃ as, (Answer.toCommand settings s command).session = s.acts as := by
  unfold Answer.toCommand
  dsimp only
  split
  · exact ⟨[], rfl⟩
  split
  · exact ⟨[], rfl⟩
  split
  · exact ⟨[], rfl⟩
  split
  · exact ⟨[.clearHistory], rfl⟩
  split
  · exact ⟨[], rfl⟩
  split
  · split
    · rename_i w _ t h
      obtain ⟨n, -, hn⟩ := Option.bind_eq_some_iff.1 h
      exact exists_acts_restore? hn
    · exact ⟨[], rfl⟩
  · exact ⟨[], rfl⟩

/-- A line does nothing to the session but what can be done on the keypad. -/
lemma exists_acts_toInput (settings : Settings) (s : Session) (input : Option Text) :
    ∃ as, (Answer.toInput settings s input).session = s.acts as := by
  cases input with
  | none => exact ⟨[], rfl⟩
  | some line =>
    rw [Answer.toInput, Answer.toLine]
    split
    · exact exists_acts_toCommand settings s _
    · rw [Answer.toKeys]
      split
      · rename_i ks _
        exact ⟨ks.map Key.action, rfl⟩
      · exact ⟨[], rfl⟩

/-- A whole conversation does nothing else either. -/
lemma exists_acts_converse (settings : Settings) (s : Session) (lines : List (Option Text)) :
    ∃ as, (converse settings s lines).1 = s.acts as := by
  induction lines generalizing s with
  | nil => exact ⟨[], rfl⟩
  | cons line lines ih =>
    obtain ⟨as, has⟩ := exists_acts_toInput settings s line
    rw [converse]
    dsimp only
    split
    · exact ⟨as, has⟩
    · obtain ⟨bs, hbs⟩ := ih (s.acts as)
      exact ⟨as ++ bs, by rw [has, Session.acts_append]; exact hbs⟩

/-! ### Numbers of rows -/

/-- The word is written for the number `n`: in digits, with a plus in front of them or without. -/
inductive IsNumber : Text → Nat → Prop
  | plain {digits : Text} (hd : AllDigits digits) (hne : digits ≠ []) :
    IsNumber digits (Nat.ofDigitChars 10 digits 0)
  | plus {digits : Text} (hd : AllDigits digits) (hne : digits ≠ []) :
    IsNumber ('+' :: digits) (Nat.ofDigitChars 10 digits 0)

section

variable {w digits : Text} {n : Nat}

/-- What digits are written for. -/
lemma ofDigits_eq_some_iff :
    (if digits ≠ [] ∧ digits.all Char.isDigit ∧ Nat.ofDigitChars 10 digits 0 < rowBound then
      some (Nat.ofDigitChars 10 digits 0) else none) = some n ↔
    (AllDigits digits ∧ digits ≠ []) ∧ Nat.ofDigitChars 10 digits 0 = n ∧ n < rowBound := by
  rw [Option.ite_none_right_eq_some, List.all_eq_true, Option.some_inj]
  constructor
  · rintro ⟨⟨hne, hd, hlt⟩, rfl⟩
    exact ⟨⟨hd, hne⟩, rfl, hlt⟩
  · rintro ⟨⟨hd, hne⟩, rfl, hlt⟩
    exact ⟨⟨hne, hd, hlt⟩, rfl⟩

lemma natural?_plus_eq_some_iff :
    natural? ('+' :: digits) = some n ↔
      (AllDigits digits ∧ digits ≠ []) ∧ Nat.ofDigitChars 10 digits 0 = n ∧ n < rowBound :=
  ofDigits_eq_some_iff

lemma natural?_digits_eq_some_iff (h : digits.head? ≠ some '+') :
    natural? digits = some n ↔
      (AllDigits digits ∧ digits ≠ []) ∧ Nat.ofDigitChars 10 digits 0 = n ∧ n < rowBound := by
  rw [← ofDigits_eq_some_iff, natural?]
  rintro t rfl
  exact h rfl

lemma head?_ne_plus (hd : AllDigits digits) : digits.head? ≠ some '+' := fun h =>
  absurd (hd '+' (List.mem_of_mem_head? h)) (by decide)

/-- The words that are taken for the number of a row. -/
lemma natural?_eq_some_iff : natural? w = some n ↔ IsNumber w n ∧ n < rowBound := by
  constructor
  · intro h
    by_cases hplus : w.head? = some '+'
    · obtain ⟨digits, rfl⟩ := List.head?_eq_some_iff.1 hplus
      obtain ⟨⟨hd, hne⟩, rfl, hlt⟩ := natural?_plus_eq_some_iff.1 h
      exact ⟨.plus hd hne, hlt⟩
    · obtain ⟨⟨hd, hne⟩, rfl, hlt⟩ := (natural?_digits_eq_some_iff hplus).1 h
      exact ⟨.plain hd hne, hlt⟩
  · rintro ⟨hnumber, hlt⟩
    cases hnumber with
    | plain hd hne => exact (natural?_digits_eq_some_iff (head?_ne_plus hd)).2 ⟨⟨hd, hne⟩, rfl, hlt⟩
    | plus hd hne => exact natural?_plus_eq_some_iff.2 ⟨⟨hd, hne⟩, rfl, hlt⟩

end

/-! ### Rows -/

/-- The place that a row stands for, counted from the oldest entry. -/
lemma get?_size_sub (l : Ledger) {n : Nat} (hpos : 1 ≤ n) (hle : n ≤ l.size) :
    l.get? (l.size - n) = l.toList.reverse[n - 1]? := by
  rw [List.getElem?_reverse (by rw [Ledger.length_toList]; omega), Ledger.length_toList, Ledger.get?]
  congr 1
  omega

lemma exists_entry (l : Ledger) {n : Nat} (hpos : 1 ≤ n) (hle : n ≤ l.size) :
    ∃ e, l.toList.reverse[n - 1]? = some e := by
  refine ⟨_, List.getElem?_eq_getElem ?_⟩
  rw [List.length_reverse, Ledger.length_toList]
  omega

lemma restore?_of_row {s : Session} {n : Nat} {e : Entry} (hpos : 1 ≤ n) (hle : n ≤ s.ledger.size)
    (he : s.ledger.toList.reverse[n - 1]? = some e) :
    restore? s n = some { s with state := ⟨e.expression, e.result, true⟩ } := by
  rw [restore?, if_pos hle, Session.select?, get?_size_sub s.ledger hpos hle, he]
  rfl

lemma restore?_eq_none {s : Session} {n : Nat} (h : ¬(1 ≤ n ∧ n ≤ s.ledger.size)) :
    restore? s n = none := by
  unfold restore?
  split
  · obtain rfl : n = 0 := by omega
    have hget : s.ledger.get? (s.ledger.size - 0) = none := by
      rw [Ledger.get?, List.getElem?_eq_none_iff, Ledger.length_toList]
      omega
    rw [Session.select?, hget]
    rfl
  · rfl

lemma historyLines_eq {l : Ledger} (h : l.size ≠ 0) (limit : Nat) :
    historyLines limit l = (l.toList.reverse.take limit).mapIdx fun i e => row (i + 1) e := by
  have hnotEmpty : l.isEmpty = false := by
    rw [Ledger.isEmpty, List.isEmpty_eq_false_iff]
    exact fun hnil => h (by rw [Ledger.size, hnil]; rfl)
  rw [historyLines, hnotEmpty, if_neg Bool.false_ne_true, Ledger.recent_eq]

lemma length_historyLines {l : Ledger} (h : l.size ≠ 0) (limit : Nat) :
    (historyLines limit l).length = min limit l.size := by
  rw [historyLines_eq h, List.length_mapIdx, List.length_take, List.length_reverse,
    Ledger.length_toList]

/-- A row within the limit shows the entry of its number. -/
lemma getElem?_historyLines {l : Ledger} {limit n : Nat} {e : Entry} (hpos : 1 ≤ n)
    (hlimit : n ≤ limit) (he : l.toList.reverse[n - 1]? = some e) :
    (historyLines limit l)[n - 1]? = some (row n e) := by
  have hsize : l.size ≠ 0 := by
    have hlt := (List.getElem?_eq_some_iff.1 he).1
    rw [List.length_reverse, Ledger.length_toList] at hlt
    omega
  rw [historyLines_eq hsize, List.getElem?_mapIdx, List.getElem?_take_of_lt (by omega), he,
    Option.map_some, Nat.sub_add_cancel hpos]

lemma isLine_row (n : Nat) {e : Entry} (hexpr : IsLine e.expression) (hresult : IsLine e.result) :
    IsLine (row n e) := by
  have hspaces : ∀ k, IsLine (List.replicate k ' ') :=
    fun k h => absurd (List.eq_of_mem_replicate h) (by decide)
  have hnumber : IsLine (rowNumber n) :=
    (hspaces _).append (.of_allDigits (allDigits_toDigits n))
  rw [row]
  exact (((hnumber.append (by decide)).append hexpr).append (by decide)).append hresult

/-- What a conversation enters in the ledger are single lines. -/
lemma isLine_converse (settings : Settings) (lines : List (Option Text)) :
    ∀ e ∈ (converse settings .initial lines).1.ledger.toList,
      IsLine e.expression ∧ IsLine e.result := by
  obtain ⟨as, has⟩ := exists_acts_converse settings .initial lines
  rw [has]
  exact (keeps_isLine.holds_run as).ledger

lemma isLine_of_mem_historyLines {l : Ledger} (hsize : l.size ≠ 0)
    (hl : ∀ e ∈ l.toList, IsLine e.expression ∧ IsLine e.result) (limit : Nat) :
    ∀ r ∈ historyLines limit l, IsLine r := by
  intro r hr
  rw [historyLines_eq hsize, List.mem_mapIdx] at hr
  obtain ⟨i, hi, rfl⟩ := hr
  have hmem := List.mem_reverse.1 (List.mem_of_mem_take (List.getElem_mem hi))
  exact isLine_row _ (hl _ hmem).1 (hl _ hmem).2

/-! ### The two commands -/

/-- The line is a command that is made of the given words. -/
def IsCommand (line : Text) (ws : List Text) : Prop :=
  ∃ command : Text, line.trim = ':' :: command ∧ command.words = ws

section

variable (settings : Settings) (s : Session) {line w : Text} {more : List Text}

lemma toLine_of_isCommand {ws : List Text} (h : IsCommand line ws) :
    ∃ command : Text, command.words = ws ∧
      Answer.toLine settings s line = Answer.toCommand settings s command := by
  obtain ⟨command, htrim, hwords⟩ := h
  refine ⟨command, hwords, ?_⟩
  rw [Answer.toLine, htrim]
  rfl

lemma toLine_history (h : IsCommand line ("history".toList :: more)) :
    Answer.toLine settings s line =
      .showing s (historyLines settings.historyLimit s.ledger) [] [] := by
  obtain ⟨command, hwords, hline⟩ := toLine_of_isCommand settings s h
  rw [hline, Answer.toCommand, hwords]
  rfl

lemma toLine_recall (h : IsCommand line ("recall".toList :: w :: more)) :
    Answer.toLine settings s line =
      match (natural? w).bind (restore? s) with
      | some t => .showing t [] [] []
      | none => .showing s [] ["no history entry ".toList ++ w] [] := by
  obtain ⟨command, hwords, hline⟩ := toLine_of_isCommand settings s h
  rw [hline, Answer.toCommand, hwords]
  rfl

lemma toLine_recall_row {n : Nat} {e : Entry} (h : IsCommand line ("recall".toList :: w :: more))
    (hw : IsNumber w n) (hbound : n < rowBound) (hpos : 1 ≤ n) (hle : n ≤ s.ledger.size)
    (he : s.ledger.toList.reverse[n - 1]? = some e) :
    Answer.toLine settings s line =
      .showing { s with state := ⟨e.expression, e.result, true⟩ } [] [] [] := by
  rw [toLine_recall settings s h, natural?_eq_some_iff.2 ⟨hw, hbound⟩, Option.bind_some,
    restore?_of_row hpos hle he]

lemma toLine_recall_no_row (h : IsCommand line ("recall".toList :: w :: more))
    (hno : ¬∃ n, IsNumber w n ∧ n < rowBound ∧ 1 ≤ n ∧ n ≤ s.ledger.size) :
    Answer.toLine settings s line = .showing s [] ["no history entry ".toList ++ w] [] := by
  have hnone : (natural? w).bind (restore? s) = none := by
    refine Option.bind_eq_none_iff.2 fun n hn => restore?_eq_none fun hrow => hno ?_
    obtain ⟨hw, hbound⟩ := natural?_eq_some_iff.1 hn
    exact ⟨n, hw, hbound, hrow⟩
  rw [toLine_recall settings s h, hnone]

/-- Whatever stands behind `recall`, at most the state changes. -/
lemma exists_toLine_recall (h : IsCommand line ("recall".toList :: w :: more)) :
    ∃ t errors, Answer.toLine settings s line = .showing t [] errors [] ∧
      t.ledger = s.ledger := by
  by_cases hrow : ∃ n, IsNumber w n ∧ n < rowBound ∧ 1 ≤ n ∧ n ≤ s.ledger.size
  · obtain ⟨n, hw, hbound, hpos, hle⟩ := hrow
    obtain ⟨e, he⟩ := exists_entry s.ledger hpos hle
    exact ⟨_, _, toLine_recall_row settings s h hw hbound hpos hle he, rfl⟩
  · exact ⟨_, _, toLine_recall_no_row settings s h hrow, rfl⟩

/-- A word of a command is a single line. -/
lemma isLine_of_isCommand {ws : List Text} (h : IsCommand line ws) (hw : w ∈ ws) : IsLine w := by
  obtain ⟨command, -, rfl⟩ := h
  exact fun hmem => absurd (Text.isBlank_of_mem_words hw _ hmem) (by decide)

end

/-- **Rows and what is recalled by them.**  Let a word stand behind `recall`.  If it is written for
a number from one up to the number of entries, and below the bound of row numbers, the state becomes
that of the entry which has this number when the entries are counted from the newest one, as if it
had just been computed; if the number is within the limit of the listing, this is the entry that
`history` shows in the row of this number.  Otherwise nothing changes, and one line reports it.
Neither command changes the ledger.  If there are entries, `history` shows one row for each of them
up to the limit, numbered from one, and what a conversation has led to is shown in single lines. -/
theorem recall_row (settings : Settings) (s : Session) :
    (∀ (line w : Text) (more : List Text), IsCommand line ("recall".toList :: w :: more) →
      let a := Answer.toLine settings s line
      a.ending = none ∧ a.session.ledger = s.ledger ∧ a.output = stateLines a.session.state ∧
      (∀ n, IsNumber w n → n < rowBound → 1 ≤ n → n ≤ s.ledger.size →
        ∃ e, s.ledger.toList.reverse[n - 1]? = some e ∧
          a.session.state = ⟨e.expression, e.result, true⟩ ∧ a.errors = [] ∧
          (n ≤ settings.historyLimit → ∀ listing others,
            IsCommand listing ("history".toList :: others) →
            (Answer.toLine settings s listing).output[n - 1]? = some (row n e))) ∧
      ((¬∃ n, IsNumber w n ∧ n < rowBound ∧ 1 ≤ n ∧ n ≤ s.ledger.size) →
        a.session = s ∧ ∃ message, a.errors = [message] ∧ IsLine message)) ∧
    ∀ (line : Text) (more : List Text), IsCommand line ("history".toList :: more) →
      let a := Answer.toLine settings s line
      a.ending = none ∧ a.session = s ∧ a.errors = [] ∧
      (s.ledger.size ≠ 0 → ∃ rows, a.output = rows ++ stateLines s.state ∧
        rows.length = min settings.historyLimit s.ledger.size ∧
        (∀ n, 1 ≤ n → n ≤ rows.length →
          ∃ e, s.ledger.toList.reverse[n - 1]? = some e ∧ rows[n - 1]? = some (row n e)) ∧
        ((∃ lines, s = (converse settings .initial lines).1) → ∀ r ∈ rows, IsLine r)) := by
  refine ⟨fun line w more h => ?_, fun line more h => ?_⟩
  · intro a
    obtain ⟨t, errors, hanswer, hledger⟩ :
        ∃ t errors, a = .showing t [] errors [] ∧ t.ledger = s.ledger :=
      exists_toLine_recall settings s h
    refine ⟨by rw [hanswer]; rfl, by rw [hanswer]; exact hledger, by rw [hanswer]; rfl,
      fun n hw hbound hpos hle => ?_, fun hno => ?_⟩
    · obtain ⟨e, he⟩ := exists_entry s.ledger hpos hle
      have hrecalled : a = _ := toLine_recall_row settings s h hw hbound hpos hle he
      refine ⟨e, he, by rw [hrecalled]; rfl, by rw [hrecalled]; rfl, ?_⟩
      intro hlimit listing others hlisting
      rw [toLine_history settings s hlisting]
      have hrow := getElem?_historyLines hpos hlimit he
      exact (List.getElem?_append_left (List.getElem?_eq_some_iff.1 hrow).1).trans hrow
    · have hreported : a = _ := toLine_recall_no_row settings s h hno
      refine ⟨by rw [hreported]; rfl, _, by rw [hreported]; rfl, ?_⟩
      exact IsLine.append (by decide) (isLine_of_isCommand h (by simp))
  · intro a
    have hlisted : a = _ := toLine_history settings s h
    refine ⟨by rw [hlisted]; rfl, by rw [hlisted]; rfl, by rw [hlisted]; rfl, fun hsize => ?_⟩
    have hlength := length_historyLines hsize settings.historyLimit
    refine ⟨_, by rw [hlisted]; rfl, hlength, fun n hpos hle => ?_, ?_⟩
    · obtain ⟨e, he⟩ := exists_entry s.ledger hpos (by omega)
      exact ⟨e, he, getElem?_historyLines hpos (by omega) he⟩
    · rintro ⟨lines, rfl⟩
      exact isLine_of_mem_historyLines hsize (isLine_converse _ lines) _

/-- After `1+2` and `3×4` have been computed, with one row listed: the second row is recalled though
it is not listed, and there is no third one. -/
theorem recall_row_of_two :
    let settings : Settings := { Settings.default with historyLimit := 1 }
    let s := (converse settings .initial [some "1 + 2 =".toList, some "3 x 4 =".toList]).1
    let second := Answer.toLine settings s " :recall\t+2 please".toList
    let third := Answer.toLine settings s ":recall 3".toList
    let listing := Answer.toLine settings s ":history".toList
    second.session.state = ⟨"1+2".toList, ['3'], true⟩ ∧
      (third.session = s ∧ ∃ message, third.errors = [message] ∧ IsLine message) ∧
      ∃ rows, listing.output = rows ++ stateLines s.state ∧ rows.length = 1 ∧
        rows[0]? = some "  1. 3×4 = 12".toList := by
  intro settings s second third listing
  have hentries : s.ledger.toList =
      [⟨"1+2".toList, ['3']⟩, ⟨"3×4".toList, "12".toList⟩] := by decide +kernel
  have hsize : s.ledger.size = 2 := by rw [← Ledger.length_toList, hentries]; rfl
  obtain ⟨hrecall, hhistory⟩ := recall_row settings s
  refine ⟨?_, ?_, ?_⟩
  · have hline : IsCommand " :recall\t+2 please".toList
        ["recall".toList, "+2".toList, "please".toList] := ⟨_, rfl, by decide⟩
    obtain ⟨-, -, -, hrow, -⟩ := hrecall _ _ _ hline
    have hnumber : IsNumber "+2".toList 2 :=
      @IsNumber.plus ['2'] (by simp [AllDigits]) (by decide)
    obtain ⟨e, he, hstate, -⟩ := hrow 2 hnumber (by decide) (by decide) (by omega)
    rw [hentries] at he
    obtain rfl := Option.some.inj he
    exact hstate
  · have hline : IsCommand ":recall 3".toList ["recall".toList, ['3']] := ⟨_, rfl, by decide⟩
    obtain ⟨-, -, -, -, hother⟩ := hrecall _ _ _ hline
    refine hother ?_
    rintro ⟨n, hnumber, hbound, -, hle⟩
    have hthree := natural?_eq_some_iff.2 ⟨hnumber, hbound⟩
    obtain rfl : 3 = n := Option.some.inj ((by decide : natural? ['3'] = some 3).symm.trans hthree)
    omega
  · have hline : IsCommand ":history".toList ["history".toList] := ⟨_, rfl, by decide⟩
    obtain ⟨-, -, -, hrows⟩ := hhistory _ _ hline
    obtain ⟨rows, houtput, hlength, hrow, -⟩ := hrows (by omega)
    rw [hsize] at hlength
    obtain ⟨e, he, hfirst⟩ := hrow 1 (by decide) (by rw [hlength]; decide)
    rw [hentries] at he
    obtain rfl := Option.some.inj he
    exact ⟨rows, houtput, hlength, hfirst⟩

end CommandLine

end DeskCalculator
