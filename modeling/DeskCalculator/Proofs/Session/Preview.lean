import DeskCalculator.Proofs.Expression.RootSubstitution
import DeskCalculator.Proofs.Session.Backspacing
import DeskCalculator.Proofs.Session.Glyphs

/-!
# The preview and the last token

While a number is typed, the display shows the run of digits and points that is found by looking
back from the end of the expression (`Numeral.trailing`).  The scanner looks from the start and
passes over what it does not know.  The two agree: in front of the run the text ends with no part of
a number, so that it may be cut there, and the run is the last token (`scan_append_run`).

Canonical form keeps the run at the end (`IsTrailingRun.canonical`), and an expression of a session
is brought into no other form.  So a preview that is not empty is the last number that evaluation
sees.
-/

namespace DeskCalculator

namespace Numeral

variable {t r : Text}

lemma IsTrailingRun.exists_getLast? (h : IsTrailingRun t r) (hne : r ≠ []) :
    ∃ c ∈ t.getLast?, isPart c = true := by
  obtain ⟨hr, front, rfl, -⟩ := h
  refine ⟨r.getLast hne, ?_, hr _ (List.getLast_mem hne)⟩
  rw [List.getLast?_append_of_ne_nil front hne]
  exact List.getLast?_eq_some_getLast hne

lemma canonical_eq_self_of_isPart (hr : ∀ c ∈ r, isPart c = true) : Expression.canonical r = r :=
  Expression.canonical_eq_self fun c hc => Token.canonicalChar_of_isPart (hr c hc)

/-- The operators of canonical form are no parts of numbers. -/
lemma IsTrailingRun.canonical (h : IsTrailingRun t r) :
    IsTrailingRun (Expression.canonical t) r := by
  obtain ⟨hr, front, rfl, hfront⟩ := h
  refine ⟨hr, Expression.canonical front, ?_, ?_⟩
  · rw [Expression.canonical_append, canonical_eq_self_of_isPart hr]
  · intro c hc
    rcases Expression.getLast?_canonical hc with rfl | rfl | hc
    · decide
    · decide
    · exact hfront c hc

end Numeral

open Numeral (isPart trailing IsTrailingRun)

namespace Token

variable {p r t : Text}

/-- A run of digits and points at the end of a text, which cannot be made longer, is the last
token. -/
lemma scan_append_run (hp : ∀ c ∈ p.getLast?, isPart c = false) (hr : ∀ c ∈ r, isPart c = true) :
    scan (p ++ r) = scan p ++ if r = [] then [] else [number r] := by
  by_cases hne : r = []
  · rw [if_pos hne, hne, List.append_nil, List.append_nil]
  · have hliteral := scan_literal (t := []) hp hr hne (by simp)
    rw [List.append_nil, scan_nil] at hliteral
    rw [hliteral, if_neg hne]

lemma exists_scan_eq_concat (h : IsTrailingRun t r) (hne : r ≠ []) :
    ∃ ks, scan t = ks ++ [number r] := by
  obtain ⟨hr, front, rfl, hfront⟩ := h
  refine ⟨scan front, ?_⟩
  rw [scan_append_run hfront hr, if_neg hne]

end Token

namespace Expression

/-- The last token that the evaluation of a text with neither roots nor squares sees is the run at
its end. -/
lemma exists_tokens_of_trailing {t : Text} (hroot : rootSign ∉ t) (hsquare : squareSign ∉ t)
    (hne : trailing t ≠ []) :
    ∃ s ks, primitive t = .ok s ∧ Token.scan s = ks ++ [.number (trailing t)] ∧
      evaluate t = (value (ks ++ [.number (trailing t)])).mapError .invalid := by
  have hrun : IsTrailingRun (canonical t) (trailing t) :=
    (Numeral.isTrailingRun_trailing t).canonical
  obtain ⟨ks, hks⟩ := Token.exists_scan_eq_concat hrun hne
  refine ⟨canonical t, ks, primitive_eq_canonical hroot hsquare, hks, ?_⟩
  rw [evaluate_of_not_mem hroot hsquare, hks]

end Expression

namespace State

lemma preview_eq_trailing {t : Text} (hne : trailing t ≠ []) : preview t = trailing t :=
  if_neg hne

/-- While an expression is typed, the run at its end is what the display shows. -/
lemma Typed.display_eq_trailing {st : State} (h : st.Typed) (hne : trailing st.expression ≠ []) :
    st.display = trailing st.expression := by
  obtain ⟨c, hc, hpart⟩ :=
    (Numeral.isTrailingRun_trailing st.expression).exists_getLast? hne
  exact Numeral.isTrailingRun_iff.1 (h.display_eq c hc hpart)

end State

namespace Session

/-- **The preview is the last token.**  Every text is divided by the run of digits and points at its
end: what stands in front of the run does not end with a digit or a point, and the tokens of the
text are those of that front, followed by the number that the run makes unless the run is empty.
After every run of a session, if the run at the end of the expression is not empty, it is the
preview, the display shows it while the expression is typed, and it is the last token that the
evaluation of the expression sees. -/
theorem preview_is_last_token :
    (∀ t, ∃ p, t = p ++ trailing t ∧ (∀ c ∈ p.getLast?, isPart c = false) ∧
      (∀ c ∈ trailing t, isPart c = true) ∧
      Token.scan t = Token.scan p ++ if trailing t = [] then [] else [.number (trailing t)]) ∧
    ∀ as, let st := (run as).state
      trailing st.expression ≠ [] →
        State.preview st.expression = trailing st.expression ∧
        (st.justComputed = false → st.display = trailing st.expression) ∧
        ∃ s ks, Expression.primitive st.expression = .ok s ∧
          Token.scan s = ks ++ [.number (trailing st.expression)] ∧
          Expression.evaluate st.expression =
            (Expression.value (ks ++ [.number (trailing st.expression)])).mapError .invalid := by
  constructor
  · intro t
    obtain ⟨hr, p, ht, hp⟩ := Numeral.isTrailingRun_trailing t
    have hscan := Token.scan_append_run hp hr
    rw [← ht] at hscan
    exact ⟨p, ht, hp, hr, hscan⟩
  · intro as st hne
    have hglyphic : st.expression.Glyphic := (glyphic_run as).expression
    refine ⟨State.preview_eq_trailing hne, ?_, ?_⟩
    · intro hj
      exact ((consistent_run as).typed hj).display_eq_trailing hne
    · exact Expression.exists_tokens_of_trailing hglyphic.not_mem_root hglyphic.not_mem_square hne

/-- A text that the scanner passes over in part, and a point behind an operator: the display shows
the number behind the operator, which is the last token. -/
theorem preview_of_product :
    Token.scan "NaN 1.5√.2".toList = Token.scan "NaN 1.5√".toList ++ [.number ".2".toList] ∧
      let as : List Action := [.digit 1, .operator .multiply, .digit 2, .point]
      (run as).state.display = "2.".toList ∧
        ∃ s ks, Expression.primitive (run as).state.expression = .ok s ∧
          Token.scan s = ks ++ [.number "2.".toList] := by
  obtain ⟨hall, hrun⟩ := preview_is_last_token
  refine ⟨?_, ?_⟩
  · obtain ⟨p, hp, -, -, hscan⟩ := hall "NaN 1.5√.2".toList
    have hpoint : trailing "NaN 1.5√.2".toList = ".2".toList := by decide
    rw [hpoint] at hp hscan
    obtain rfl : "NaN 1.5√".toList = p := List.append_cancel_right hp
    exact hscan
  · intro as
    obtain ⟨-, hdisplay, s, ks, hs, hks, -⟩ := hrun as (by decide)
    exact ⟨hdisplay rfl, s, ks, hs, hks⟩

end Session

end DeskCalculator
