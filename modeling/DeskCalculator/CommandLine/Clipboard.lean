import DeskCalculator.Text.Blank

/-!
# The clipboard

Results can be copied to the clipboard of the desktop.  Whether that works is up to the desktop:
the clipboard may be out of reach, and one that is in reach may refuse a text.  Each time the
desktop gives the reason.
-/

namespace DeskCalculator

namespace CommandLine

/-- Why a text is not copied. -/
inductive CopyError where
  /-- The clipboard is out of reach, for the given reason. -/
  | unreachable (reason : Text)
  /-- The clipboard refuses the text, for the given reason. -/
  | refused (reason : Text)
deriving DecidableEq, Repr

namespace CopyError

/-- The error as a sentence. -/
def message : CopyError → Text
  | unreachable _ => "Failed to access clipboard".toList
  | refused _ => "Failed to copy to clipboard".toList

/-- The reason for the error. -/
def reason : CopyError → Text
  | unreachable reason => reason
  | refused reason => reason

end CopyError

/-- What the desktop answers when a text is to be copied. -/
structure Clipboard where
  /-- Whether the clipboard is in reach, or else why not. -/
  reach : Except Text Unit
  /-- Whether the clipboard takes a text, or else why not. -/
  take : Text → Except Text Unit

namespace Clipboard

/-- Copies a text to the clipboard. -/
def copy (c : Clipboard) (t : Text) : Except CopyError Unit := do
  c.reach.mapError .unreachable
  (c.take t).mapError .refused

/-- The clipboard where there is no desktop, which is out of reach. -/
def noDesktop : Clipboard :=
  let reason := "there is no desktop".toList
  ⟨.error reason, fun _ => .error reason⟩

end Clipboard

end CommandLine

end DeskCalculator
