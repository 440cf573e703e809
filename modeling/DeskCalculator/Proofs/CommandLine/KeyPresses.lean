import DeskCalculator.CommandLine.Run
import DeskCalculator.Proofs.Keypad.KeyWords
import DeskCalculator.Proofs.Session.History

/-!
# Keys on the command line and in a conversation

Keys can be given as arguments of the program, all of which are pressed in one session, or line by
line in a conversation.  The two differ in what an unknown word does: an argument with such a word
ends the program without a state being shown, and a line with such a word is passed over as a whole,
with a message.

A line that is no command is answered by pressing the keys of `pressed`, which are none if a word of
it is unknown (`toLine_eq`); from this the whole conversation follows by induction on its lines
(`converse_lines`).  The arguments are pressed as long as all words are known (`pressTexts_of_known`).
Where all words are known, neither depends on how the words are distributed over the arguments or
lines.
-/

namespace DeskCalculator

open Key

namespace Text

/-- The first word of a text that names no key. -/
def unknown? (t : Text) : Option Text := t.words.find? isUnknown

/-- The keys that the words of a text name, if all of them name one. -/
def pressed (t : Text) : List Key :=
  if t.unknown? = none then t.words.filterMap ofWord? else []

lemma pressed_of_known {t : Text} (h : t.unknown? = none) :
    t.pressed = t.words.filterMap ofWord? :=
  if_pos h

lemma pressed_of_unknown {t w : Text} (h : t.unknown? = some w) : t.pressed = [] := by
  rw [pressed, h]
  rfl

lemma ofText_of_known {t : Text} (h : t.unknown? = none) : ofText t = .ok t.pressed := by
  rw [ofText, mapM_ofWord, show t.words.find? isUnknown = none from h, pressed_of_known h]

lemma ofText_of_unknown {t w : Text} (h : t.unknown? = some w) : ofText t = .error ⟨w⟩ := by
  rw [ofText, mapM_ofWord, show t.words.find? isUnknown = some w from h]

lemma unknown?_trim (t : Text) : t.trim.unknown? = t.unknown? := by
  rw [unknown?, unknown?, words_trim]

lemma pressed_trim (t : Text) : t.trim.pressed = t.pressed := by
  rw [pressed, pressed, unknown?_trim, words_trim]

/-- A line of which all words are known is no command. -/
lemma head?_trim_of_known {t : Text} (h : t.unknown? = none) : t.trim.head? ≠ some ':' := by
  intro hhead
  obtain ⟨rest, hrest⟩ : ∃ rest, t.trim = ':' :: rest := by
    rcases ht : t.trim with _ | ⟨c, rest⟩
    · rw [ht] at hhead
      cases hhead
    · rw [ht] at hhead
      obtain rfl : c = ':' := Option.some.inj hhead
      exact ⟨rest, rfl⟩
  obtain ⟨w, ws, hwords⟩ := words_cons (c := ':') (by decide) rest
  have hunknown : isUnknown (':' :: w) = true := by
    rw [isUnknown, ofWord?_colon]
    rfl
  rw [← unknown?_trim, hrest, unknown?, hwords, List.find?_cons_of_pos hunknown] at h
  cases h

/-! ### Quoted words -/

lemma exists_digitChar_of_mem_toDigits {b n : Nat} (hb : 1 < b) {c : Char}
    (hc : c ∈ Nat.toDigits b n) : ∃ d < b, c = d.digitChar := by
  induction n using Nat.strongRecOn with
  | _ n ih =>
    rw [Nat.toDigits_eq_if hb] at hc
    split at hc
    · rename_i hn
      exact ⟨n, hn, List.mem_singleton.1 hc⟩
    · rename_i hn
      rcases List.mem_append.1 hc with hc | hc
      · exact ih _ (Nat.div_lt_self (by omega) hb) hc
      · exact ⟨n % b, Nat.mod_lt n (by omega), List.mem_singleton.1 hc⟩

/-- Between quotes no line ends. -/
lemma not_mem_quoted (t : Text) : '\n' ∉ t.quoted := by
  have hchar : ∀ c, '\n' ∉ quotedChar c := by
    intro c
    unfold quotedChar
    split
    case h_7 =>
      split
      · intro hmem
        rcases List.mem_append.1 hmem with hmem | hmem
        · rcases List.mem_append.1 hmem with hmem | hmem
          · exact absurd hmem (by decide)
          · obtain ⟨d, hlt, hd⟩ := exists_digitChar_of_mem_toDigits (by decide) hmem
            have hdigit : ∀ d < 16, d.digitChar ≠ '\n' := by decide
            exact hdigit d hlt hd.symm
        · exact absurd hmem (by decide)
      · intro hmem
        exact absurd (List.mem_singleton.1 hmem).symm ‹_›
    all_goals decide
  intro hmem
  rcases List.mem_append.1 hmem with hmem | hmem
  · rcases List.mem_cons.1 hmem with hquote | hmem
    · exact absurd hquote (by decide)
    · obtain ⟨c, -, hc⟩ := List.mem_flatMap.1 hmem
      exact hchar c hc
  · exact absurd hmem (by decide)

/-! ### Texts that some words are distributed over -/

lemma flatMap_words_of_spaced {groups : List (List Text)} {texts : List Text}
    (h : List.Forall₂ Spaced groups texts) : texts.flatMap words = groups.flatten := by
  induction h with
  | nil => rfl
  | cons hspaced _ ih => rw [List.flatMap_cons, hspaced.words_eq, ih, List.flatten_cons]

lemma unknown?_of_flatMap_words {texts ws : List Text} {ks : List Key}
    (hws : ws.map ofWord? = ks.map some) (h : texts.flatMap words = ws) :
    ∀ t ∈ texts, t.unknown? = none := by
  intro t ht
  refine List.find?_eq_none.2 fun w hw => ?_
  have hmem : ofWord? w ∈ ks.map some := by
    rw [← hws, ← h]
    exact List.mem_map_of_mem (List.mem_flatMap.2 ⟨t, ht, hw⟩)
  obtain ⟨k, -, hk⟩ := List.mem_map.1 hmem
  rw [isUnknown, ← hk]
  exact Bool.false_ne_true

/-- The keys of some texts of which all words are known are those of the words. -/
lemma flatMap_pressed {texts ws : List Text} {ks : List Key}
    (hws : ws.map ofWord? = ks.map some) (h : texts.flatMap words = ws) :
    texts.flatMap pressed = ks := by
  have hknown := unknown?_of_flatMap_words hws h
  calc texts.flatMap pressed
      = texts.flatMap fun t => t.words.filterMap ofWord? :=
        List.flatMap_congr fun t ht => pressed_of_known (hknown t ht)
    _ = ws.filterMap ofWord? := by rw [← h, List.filterMap_flatMap]
    _ = (ws.map ofWord?).filterMap id := by rw [List.filterMap_map]; rfl
    _ = ks := by rw [hws, List.filterMap_map]; exact List.filterMap_some

end Text

namespace Session

/-! ### Results of key presses -/

/-- Pressing keys only adds to the ledger. -/
lemma exists_ledger_press (s : Session) (ks : List Key) :
    ∃ es, (s.press ks).ledger.toList = s.ledger.toList ++ es := by
  induction ks generalizing s with
  | nil => exact ⟨[], (List.append_nil _).symm⟩
  | cons k ks ih =>
    obtain ⟨es, hes⟩ : ∃ es, (s.act k.action).ledger.toList = s.ledger.toList ++ es := by
      by_cases hk : k.action = .compute
      · rw [hk]
        exact ⟨_, toList_ledger_compute s⟩
      · have hclear : k.action ≠ .clearHistory := by cases k <;> nofun
        rw [ledger_act s hk hclear]
        exact ⟨[], (List.append_nil _).symm⟩
    obtain ⟨fs, hfs⟩ := ih (s.act k.action)
    refine ⟨es ++ fs, ?_⟩
    rw [← List.append_assoc, ← hes]
    exact hfs

end Session

namespace CommandLine

lemma results_eq {s : Session} {ks : List Key} {es : List Entry}
    (h : (s.press ks).ledger.toList = s.ledger.toList ++ es) :
    results s ks = es.map Entry.result := by
  rw [results, h, ← Ledger.length_toList, List.drop_left]

/-- Results are the same whether keys are pressed at once or in two parts. -/
lemma copies_append (settings : Settings) (s : Session) (ks ls : List Key) :
    copies settings s (ks ++ ls) = copies settings s ks ++ copies settings (s.press ks) ls := by
  obtain ⟨es, hes⟩ := s.exists_ledger_press ks
  obtain ⟨fs, hfs⟩ := (s.press ks).exists_ledger_press ls
  have hboth : (s.press (ks ++ ls)).ledger.toList = s.ledger.toList ++ (es ++ fs) := by
    rw [Session.press_append, hfs, hes, List.append_assoc]
  rw [copies, copies, copies, results_eq hes, results_eq hfs, results_eq hboth]
  cases settings.copyResults
  · rfl
  · exact List.map_append

lemma copies_nil (settings : Settings) (s : Session) : copies settings s [] = [] := by
  have hnil : (s.press []).ledger.toList = s.ledger.toList ++ [] := (List.append_nil _).symm
  rw [copies, results_eq hnil]
  cases settings.copyResults <;> rfl

/-! ### Lines of a conversation -/

/-- The line that reports an unknown word. -/
def unknownLine (w : Text) : Text := UnknownKey.message ⟨w⟩

lemma not_mem_unknownLine (w : Text) : '\n' ∉ unknownLine w := by
  intro hmem
  rcases List.mem_append.1 hmem with hmem | hmem
  · exact absurd hmem (by decide)
  · exact Text.not_mem_quoted w hmem

lemma toKeys_eq (settings : Settings) (s : Session) (t : Text) :
    Answer.toKeys settings s t =
      .showing (s.press t.pressed) [] (t.unknown?.toList.map unknownLine)
        (copies settings s t.pressed) := by
  rw [Answer.toKeys]
  cases h : t.unknown? with
  | none =>
    rw [Text.ofText_of_known h]
    rfl
  | some w =>
    rw [Text.ofText_of_unknown h, Text.pressed_of_unknown h, copies_nil]
    rfl

/-- **The answer to a line that is no command.**  All its keys are pressed, or none if a word is
unknown, which is then reported. -/
lemma toLine_eq (settings : Settings) (s : Session) {l : Text} (hl : l.trim.head? ≠ some ':') :
    Answer.toLine settings s l =
      .showing (s.press l.pressed) [] (l.unknown?.toList.map unknownLine)
        (copies settings s l.pressed) := by
  rw [Answer.toLine]
  split
  · rename_i command heq
    rw [heq] at hl
    exact absurd rfl hl
  · rw [toKeys_eq, Text.unknown?_trim, Text.pressed_trim]

/-- The lines that show the state after each of some lines. -/
def answered (s : Session) (lines : List Text) : List Text :=
  (List.range lines.length).flatMap fun i =>
    stateLines (s.press ((lines.take (i + 1)).flatMap Text.pressed)).state

lemma answered_cons (s : Session) (l : Text) (lines : List Text) :
    answered s (l :: lines) =
      stateLines (s.press l.pressed).state ++ answered (s.press l.pressed) lines := by
  rw [answered, List.length_cons, List.range_succ_eq_map, List.flatMap_cons, List.flatMap_map]
  refine congrArg₂ _ ?_ (List.flatMap_congr fun i _ => ?_)
  · rw [List.take_succ_cons, List.take_zero, List.flatMap_cons, List.flatMap_nil, List.append_nil]
  · rw [List.take_succ_cons, List.flatMap_cons, Session.press_append]

/-- **A conversation without commands.** -/
lemma converse_lines (settings : Settings) (s : Session) {lines : List Text}
    (h : ∀ l ∈ lines, l.trim.head? ≠ some ':') :
    converse settings s (lines.map some) =
      (s.press (lines.flatMap Text.pressed),
        ⟨0, answered s lines, (lines.filterMap Text.unknown?).map unknownLine,
          copies settings s (lines.flatMap Text.pressed)⟩) := by
  induction lines generalizing s with
  | nil =>
    rw [List.flatMap_nil, copies_nil]
    rfl
  | cons l lines ih =>
    -- the other lines go on in the session that the first one leaves
    have hrest := ih (s.press l.pressed) fun m hm => h m (List.mem_cons_of_mem l hm)
    rw [List.map_cons, converse, Answer.toInput, toLine_eq settings s (h l List.mem_cons_self)]
    simp only [Answer.showing, hrest]
    rw [List.flatMap_cons, Session.press_append, copies_append, answered_cons]
    cases hl : l.unknown? with
    | none =>
      rw [List.filterMap_cons_none hl]
      rfl
    | some w =>
      rw [List.filterMap_cons_some hl]
      rfl

/-! ### Arguments -/

/-- Arguments of which all words are known are pressed like a single one. -/
lemma pressTexts_of_known (settings : Settings) (s : Session) {texts : List Text}
    (h : ∀ t ∈ texts, t.unknown? = none) :
    pressTexts settings s texts =
      (copies settings s (texts.flatMap Text.pressed),
        .ok (s.press (texts.flatMap Text.pressed))) := by
  induction texts generalizing s with
  | nil =>
    rw [List.flatMap_nil, copies_nil]
    rfl
  | cons t texts ih =>
    have hrest := ih (s.press t.pressed) fun u hu => h u (List.mem_cons_of_mem t hu)
    rw [pressTexts, Text.ofText_of_known (h t List.mem_cons_self)]
    simp only [hrest]
    rw [List.flatMap_cons, Session.press_append, copies_append]

/-- The first unknown word of some arguments ends the presses. -/
lemma pressTexts_of_unknown (settings : Settings) (s : Session) {texts : List Text} {w : Text}
    (h : texts.findSome? Text.unknown? = some w) :
    (pressTexts settings s texts).2 = .error ⟨w⟩ := by
  induction texts generalizing s with
  | nil => cases h
  | cons t texts ih =>
    rw [pressTexts]
    cases ht : t.unknown? with
    | none =>
      rw [List.findSome?_cons_of_isNone (by rw [ht]; rfl)] at h
      rw [Text.ofText_of_known ht]
      exact ih _ h
    | some v =>
      rw [List.findSome?_cons_of_isSome (by rw [ht]; rfl), ht] at h
      obtain rfl := Option.some.inj h
      rw [Text.ofText_of_unknown ht]

/-! ### The two ways -/

/-- **Keys on the command line and in a conversation.**  Whenever words that all name keys are
distributed over texts, with whatever blanks around them, the texts as arguments of the program
lead to the session that pressing the keys one by one leads to, which is what is shown, and the texts
as lines of a conversation lead to the same session without a message.  In a conversation whose
lines are no commands, every line presses the keys of its words if all of them name one, and no key
otherwise; the state is shown after every line, and every line with an unknown word is reported in
one line, with the first such word.  An unknown word among the arguments ends the program with a
failure and without showing a state. -/
theorem presses_agree :
    (∀ (settings : Settings) (ws : List Text) (ks : List Key) (groups : List (List Text))
      (texts : List Text), ws.map ofWord? = ks.map some → groups.flatten = ws →
      List.Forall₂ Text.Spaced groups texts →
      let s := Session.initial.press ks
      (pressTexts settings .initial texts).2 = .ok s ∧
        (∀ json, runPress settings texts json =
          ⟨0, sessionLines settings json s, [], copies settings .initial ks⟩) ∧
        (converse settings .initial (texts.map some)).1 = s ∧
        (converse settings .initial (texts.map some)).2.errors = []) ∧
    (∀ (settings : Settings) (s : Session) (lines : List Text),
      (∀ l ∈ lines, l.trim.head? ≠ some ':') →
      converse settings s (lines.map some) =
        (s.press (lines.flatMap Text.pressed),
          ⟨0, answered s lines, (lines.filterMap Text.unknown?).map unknownLine,
            copies settings s (lines.flatMap Text.pressed)⟩)) ∧
    (∀ (settings : Settings) (input : List UInt8) (lines : List Text),
      linesOfBytes input = lines.map some → (∀ l ∈ lines, l.trim.head? ≠ some ':') →
      runConverse settings input =
        ⟨0, stateLines Session.initial.state ++ answered .initial lines,
          (lines.filterMap Text.unknown?).map unknownLine,
          copies settings .initial (lines.flatMap Text.pressed)⟩) ∧
    (∀ l : Text, (∃ w, l.unknown? = some w ∧ l.pressed = [] ∧ '\n' ∉ unknownLine w) ∨
      (l.unknown? = none ∧ l.words.map ofWord? = l.pressed.map some)) ∧
    ∀ (settings : Settings) (texts : List Text) (json : Bool) (w : Text),
      texts.findSome? Text.unknown? = some w →
      (runPress settings texts json).code = 1 ∧ (runPress settings texts json).output = [] ∧
        (runPress settings texts json).errors = ["Error: ".toList ++ unknownLine w] := by
  refine ⟨?_, fun settings s lines => converse_lines settings s, ?_, ?_, ?_⟩
  · intro settings ws ks groups texts hws hgroups hspaced s
    have hwords : texts.flatMap Text.words = ws :=
      (Text.flatMap_words_of_spaced hspaced).trans hgroups
    have hknown := Text.unknown?_of_flatMap_words hws hwords
    have hpressed := pressTexts_of_known settings .initial hknown
    have hconverse := converse_lines settings .initial
      fun t ht => Text.head?_trim_of_known (hknown t ht)
    rw [Text.flatMap_pressed hws hwords] at hpressed hconverse
    refine ⟨by rw [hpressed], fun json => by rw [runPress, hpressed], by rw [hconverse], ?_⟩
    rw [hconverse, List.filterMap_eq_nil_iff.2 hknown]
    rfl
  · intro settings input lines hinput hlines
    rw [runConverse, hinput, converse_lines settings .initial hlines]
    rfl
  · intro l
    cases h : l.unknown? with
    | some w => exact Or.inl ⟨w, rfl, Text.pressed_of_unknown h, not_mem_unknownLine w⟩
    | none => exact Or.inr ⟨rfl, by rw [Text.pressed_of_known h]; exact map_ofWord? h⟩
  · intro settings texts json w h
    have hpressed := pressTexts_of_unknown settings .initial h
    rw [runPress]
    rcases hrun : pressTexts settings .initial texts with ⟨offered, _ | s⟩
    · rw [hrun] at hpressed
      obtain rfl := Except.error.inj hpressed
      exact ⟨rfl, rfl, rfl⟩
    · rw [hrun] at hpressed
      cases hpressed

/-- The keys of `1+2=`, distributed over three texts with different blanks, and three lines of which
the second one has two unknown words. -/
theorem presses_agree_for_sum :
    let texts := ["1 \u3000+".toList, " ".toList, "2\t=".toList]
    let lines := ["1 +".toList, "2 zap = zip".toList, "2 =".toList]
    let sum := Session.initial.press [.digit 1, .operator .add, .digit 2, .equals]
    ((runPress .default texts true).output = [sum.toJson.pretty] ∧
      (converse .default .initial (texts.map some)).1 = sum) ∧
    (converse .default .initial (lines.map some)).1 = sum ∧
    (runConverse .default "1 +\n2 zap = zip\n2 =\n".toUTF8.data.toList).errors =
      ["unknown key: \"zap\"".toList] ∧
    (runPress .default lines false).code = 1 := by
  intro texts lines sum
  obtain ⟨hagree, hlines, hinput, -, hunknown⟩ := presses_agree
  have hspaced : List.Forall₂ Text.Spaced
      [[['1'], ['+']], [], [['2'], ['=']]] texts :=
    .cons (Text.words_eq_iff.1 (by decide)) (.cons (Text.words_eq_iff.1 (by decide))
      (.cons (Text.words_eq_iff.1 (by decide)) .nil))
  have hcommand : ∀ l ∈ lines, (Text.trim l).head? ≠ some ':' := by decide
  have hbytes : linesOfBytes "1 +\n2 zap = zip\n2 =\n".toUTF8.data.toList = lines.map some := by
    decide +kernel
  obtain ⟨-, hrun, hsession, -⟩ := hagree .default [['1'], ['+'], ['2'], ['=']]
    [.digit 1, .operator .add, .digit 2, .equals] _ texts (by decide) rfl hspaced
  refine ⟨⟨by rw [hrun true]; rfl, hsession⟩, ?_, ?_, ?_⟩
  · rw [hlines .default .initial lines hcommand]
    decide +kernel
  · rw [hinput .default _ lines hbytes hcommand]
    decide +kernel
  · exact (hunknown .default lines false "zap".toList (by decide +kernel)).1

end CommandLine

end DeskCalculator
