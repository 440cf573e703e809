import DeskCalculator.CommandLine.Run
import DeskCalculator.Proofs.Number.Bits
import DeskCalculator.Proofs.Number.DecimalText
import DeskCalculator.Proofs.Session.History

/-!
# What a shown error means

The display shows the same word for an expression that has no value and for a value that is not a
number.  The two are told apart by everything else: an evaluation that fails ends the program with a
failure code and leaves the ledger as it is, and a value that is not a number counts as a result like
any other, so that it is entered in the ledger with that word beside it.  On the command line there
is one more failure that the output does not show: a value that is to be copied and is not
(`CopyFails`).

Both follow from what the display makes of a number: the word appears for nothing but what is not a
number (`text_eq_error_iff`), since every other text starts with a sign, a digit or the name of
infinity.
-/

namespace DeskCalculator

namespace Expression

/-- The text has a value, and it is not a number. -/
def HasNaN (t : Text) : Prop := ∃ x, evaluate t = .ok x ∧ x.isNaN = true

lemma hasNaN_iff_of_ok {t : Text} {x : Float} (h : evaluate t = .ok x) :
    HasNaN t ↔ x.isNaN = true := by
  constructor
  · rintro ⟨y, hy, hnan⟩
    cases h.symm.trans hy
    exact hnan
  · exact fun hnan => ⟨x, h, hnan⟩

end Expression

open Expression

namespace Display

open Decimal Numeral

/-! ### The word for an error -/

/-- The display shows the word for an error exactly for what is not a number. -/
lemma text_eq_error_iff (x : Float) : text x = error ↔ x.isNaN = true := by
  rw [← Binary64.ofFloat_eq_nan_iff, text]
  cases Binary64.ofFloat x with
  | nan => exact ⟨fun _ => rfl, fun _ => rfl⟩
  | infinite negative => cases negative <;> exact ⟨by decide, nofun⟩
  | finite negative m q =>
    refine ⟨fun h => ?_, nofun⟩
    dsimp only at h
    split at h
    · exact absurd h (by decide)
    cases negative with
    | true => exact absurd (List.cons.inj h).1 (by decide)
    | false => exact absurd (isPart_head_fraction h) (by decide)

end Display

namespace Calculation

/-! ### A single evaluation -/

lemma display_eq_error_iff (t : Text) :
    (ofText t).display = Display.error ↔ (ofText t).succeeds = false ∨ HasNaN t.trim := by
  rw [display, succeeds, ofText]
  cases h : evaluate t.trim with
  | error err => exact ⟨fun _ => Or.inl rfl, fun _ => rfl⟩
  | ok x =>
    rw [hasNaN_iff_of_ok h, ← Display.text_eq_error_iff]
    exact ⟨Or.inr, fun hor => hor.resolve_left nofun⟩

end Calculation

namespace CommandLine

/-! ### A single evaluation on the command line -/

/-- What is shown for `t` is to be copied, and the clipboard does not take it. -/
def CopyFails (clipboard : Clipboard) (settings : Settings) (t : Text) (copy : Bool) : Prop :=
  (copy = true ∨ settings.copyResults = true) ∧
    ∃ e, clipboard.copy (Calculation.ofText t).display = .error e

lemma runCopy_spec (clipboard : Clipboard) (t : Text) :
    (runCopy clipboard t).output = [] ∧
      ((runCopy clipboard t).code ≠ 0 ↔ ∃ e, clipboard.copy t = .error e) := by
  rw [runCopy]
  cases clipboard.copy t with
  | error e => exact ⟨rfl, fun _ => ⟨e, rfl⟩, fun _ => Nat.one_ne_zero⟩
  | ok u => exact ⟨rfl, fun h => absurd rfl h, nofun⟩

/-- Evaluating on the command line writes what the display shows, and the exit code says whether
there is a value that is not lost on the way to the clipboard. -/
lemma runEvaluate_spec (clipboard : Clipboard) (settings : Settings) (t : Text) (copy : Bool) :
    (runEvaluate clipboard settings t copy).output = [(Calculation.ofText t).display] ∧
      ((runEvaluate clipboard settings t copy).code ≠ 0 ↔
        (Calculation.ofText t).succeeds = false ∨ CopyFails clipboard settings t copy) := by
  obtain ⟨houtput, hcode⟩ := runCopy_spec clipboard (Calculation.ofText t).display
  rw [runEvaluate, Calculation.succeeds, CopyFails]
  cases (Calculation.ofText t).outcome with
  | error err => exact ⟨rfl, fun _ => Or.inl rfl, fun _ => Nat.one_ne_zero⟩
  | ok x =>
    dsimp only
    split
    · rename_i hwanted
      refine ⟨by rw [Outcome.after, houtput, List.append_nil], hcode.trans ?_⟩
      exact ⟨fun h => Or.inr ⟨Bool.or_eq_true_iff.1 hwanted, h⟩, fun h => (h.resolve_left nofun).2⟩
    · rename_i hunwanted
      rw [← Bool.or_eq_true_iff]
      exact ⟨rfl, fun h => absurd rfl h, fun h => absurd (h.resolve_left nofun).1 hunwanted⟩

end CommandLine

namespace Session

/-! ### A computation in a session -/

lemma ledger_record_ne (l : Ledger) (e : Entry) : l.record e ≠ l := by
  intro h
  have hsize := congrArg Ledger.size h
  exact absurd hsize (Nat.succ_ne_self _)

/-- Computing leaves the ledger as it is exactly if the evaluation fails. -/
lemma ledger_compute_eq_iff {s : Session} (h : s.state.expression ≠ []) :
    s.compute.ledger = s.ledger ↔ ∃ err, evaluate s.state.expression = .error err := by
  cases hx : evaluate s.state.expression with
  | error err =>
    rw [compute_of_error h hx]
    exact ⟨fun _ => ⟨err, rfl⟩, fun _ => rfl⟩
  | ok x =>
    rw [compute_of_ok h hx]
    exact ⟨fun heq => absurd heq (ledger_record_ne _ _), nofun⟩

lemma display_compute_eq_error_iff {s : Session} (h : s.state.expression ≠ []) :
    s.compute.state.display = Display.error ↔
      s.compute.ledger = s.ledger ∨ HasNaN s.state.expression := by
  rw [ledger_compute_eq_iff h]
  cases hx : evaluate s.state.expression with
  | error err =>
    rw [compute_of_error h hx]
    exact ⟨fun _ => Or.inl ⟨err, rfl⟩, fun _ => rfl⟩
  | ok x =>
    rw [compute_of_ok h hx, hasNaN_iff_of_ok hx, ← Display.text_eq_error_iff]
    exact ⟨Or.inr, fun hor => hor.resolve_left nofun⟩

/-- A computation that changes the ledger adds the result that it shows. -/
lemma toList_ledger_compute_of_ne {s : Session} (h : s.state.expression ≠ [])
    (hne : s.compute.ledger ≠ s.ledger) :
    s.compute.ledger.toList =
      s.ledger.toList ++ [⟨s.state.expression, s.compute.state.display⟩] := by
  cases hx : evaluate s.state.expression with
  | error err => exact absurd ((ledger_compute_eq_iff h).2 ⟨err, hx⟩) hne
  | ok x =>
    rw [compute_of_ok h hx]
    exact Ledger.toList_record _ _

/-- **The word for an error stands for a failed evaluation or for a value that is not a number.**
A text is shown as an error exactly if it has no value or one that is not a number.  Evaluated on
the command line, it then has this word as its only output, and the exit code is a failure exactly
if there is no value or if the value is to be copied and is not.  Wherever copying does not fail,
the word is put out exactly if the exit code is a failure or the value is not a number, and the exit
code is a failure exactly if there is no value.  When the expression of a session is computed, the display shows the
word exactly if the ledger is as it was or the value is not a number.  The ledger is as it was
exactly if the evaluation fails; otherwise one entry is added, with the expression and what is
shown, so that its result is the word exactly if the value is not a number. -/
theorem error_shown_iff :
    (∀ t, (Calculation.ofText t).display = Display.error ↔
      (Calculation.ofText t).succeeds = false ∨ HasNaN t.trim) ∧
    (∀ (clipboard : CommandLine.Clipboard) (settings : Settings) (t : Text) (copy : Bool),
      let o := CommandLine.runEvaluate clipboard settings t copy
      let failed := (Calculation.ofText t).succeeds = false
      (o.output = [Display.error] ↔ failed ∨ HasNaN t.trim) ∧
        (o.code ≠ 0 ↔ failed ∨ CommandLine.CopyFails clipboard settings t copy) ∧
        (¬CommandLine.CopyFails clipboard settings t copy →
          (o.output = [Display.error] ↔ o.code ≠ 0 ∨ HasNaN t.trim) ∧ (o.code ≠ 0 ↔ failed))) ∧
    ∀ s : Session, s.state.expression ≠ [] →
      (s.compute.state.display = Display.error ↔
        s.compute.ledger = s.ledger ∨ HasNaN s.state.expression) ∧
      (s.compute.ledger = s.ledger ↔ ∃ err, evaluate s.state.expression = .error err) ∧
      (s.compute.ledger ≠ s.ledger → ∃ e, s.compute.ledger.toList = s.ledger.toList ++ [e] ∧
        e.expression = s.state.expression ∧ e.result = s.compute.state.display ∧
        (e.result = Display.error ↔ HasNaN s.state.expression)) := by
  refine ⟨Calculation.display_eq_error_iff, fun clipboard settings t copy => ?_, fun s hs => ?_⟩
  · intro o failed
    obtain ⟨houtput, hcode⟩ := CommandLine.runEvaluate_spec clipboard settings t copy
    have hshown : o.output = [Display.error] ↔ failed ∨ HasNaN t.trim := by
      rw [houtput, ← Calculation.display_eq_error_iff]
      exact ⟨fun h => (List.cons.inj h).1, congrArg (fun d => [d])⟩
    refine ⟨hshown, hcode, fun hcopied => ?_⟩
    have hfailed : o.code ≠ 0 ↔ failed := hcode.trans (or_iff_left hcopied)
    exact ⟨by rw [hshown, hfailed], hfailed⟩
  · have hdisplay := display_compute_eq_error_iff hs
    refine ⟨hdisplay, ledger_compute_eq_iff hs, fun hne => ?_⟩
    exact ⟨_, toList_ledger_compute_of_ne hs hne, rfl, rfl,
      hdisplay.trans ⟨fun h => h.resolve_left hne, Or.inr⟩⟩

/-- The keys of `0÷0`, of which the division fails. -/
theorem error_shown_for_division :
    let s := run [.digit 0, .operator .divide, .digit 0]
    s.state.expression ≠ [] ∧ (s.compute.state.display = Display.error ↔
      s.compute.ledger = s.ledger ∨ HasNaN s.state.expression) := by
  intro s
  have hs : s.state.expression ≠ [] := by decide +kernel
  exact ⟨hs, (error_shown_iff.2.2 s hs).1⟩

/-- A word for an error need not stand for a failed evaluation.  A numeral of 309 nines is read as
infinity, whose product with zero is not a number: evaluating it ends with the code of a success,
and computing it adds an entry to the ledger, but both show the word.  Nor is the word shown for
every failure: without a clipboard, evaluating `1+1` to copy it shows the value and ends with a
failure code. -/
theorem error_shown_for_infinity_times_zero :
    (let t := List.replicate 309 '9' ++ "×0".toList
     (Calculation.ofText t).display = Display.error ∧ (Calculation.ofText t).succeeds = true ∧
      (CommandLine.runEvaluate .noDesktop .default t false).output = [Display.error] ∧
      (CommandLine.runEvaluate .noDesktop .default t false).code = 0) ∧
    ((CommandLine.runEvaluate .noDesktop .default "1+1".toList true).output = [['2']] ∧
      (CommandLine.runEvaluate .noDesktop .default "1+1".toList true).code = 1) ∧
    (let s := run (List.replicate 309 (.digit 9) ++ [.operator .multiply, .digit 0])
     s.state.expression ≠ [] ∧ s.compute.state.display = Display.error ∧
      s.compute.ledger ≠ s.ledger) := by
  decide +kernel

end Session

end DeskCalculator
