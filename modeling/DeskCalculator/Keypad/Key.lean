import DeskCalculator.Text.Quoted
import DeskCalculator.Expression.Token
import DeskCalculator.Keypad.Function

/-!
# Keys

The keys of the calculator and the words for them.  A key may have several spellings;
`Key.text` is the one that it is shown with.  `Key.ofText` reads a sequence of words, and
fails at the first word that names no key.
-/

namespace DeskCalculator

/-- The keys. -/
inductive Key where
  | digit (d : Fin 10)
  | operator (op : Operator)
  /-- Opens or closes a group, whichever the expression wants. -/
  | parenthesis
  | point
  | backspace
  | clear
  | equals
  | function (f : UnaryFunction)
deriving DecidableEq, Repr

/-- A word that names no key. -/
structure UnknownKey where
  word : Text
deriving DecidableEq, Repr

namespace UnknownKey

/-- The error as a sentence. -/
def message (e : UnknownKey) : Text :=
  "unknown key: ".toList ++ e.word.quoted

end UnknownKey

namespace Key

/-- The digit that `c` is. -/
def digit? (c : Char) : Option (Fin 10) :=
  (List.finRange 10).find? fun d => d.val.digitChar == c

/-- The spellings of the keys that are not digits. -/
def spellings : List (Text × Key) :=
  [("+".toList, operator .add),
    ("-".toList, operator .subtract),
    ("*".toList, operator .multiply),
    ("x".toList, operator .multiply),
    ("×".toList, operator .multiply),
    ("/".toList, operator .divide),
    ("÷".toList, operator .divide),
    ("^".toList, operator .raise),
    ("pow".toList, operator .raise),
    ("()".toList, parenthesis),
    ("paren".toList, parenthesis),
    (".".toList, point),
    ("back".toList, backspace),
    ("backspace".toList, backspace),
    ("⌫".toList, backspace),
    ("C".toList, clear),
    ("c".toList, clear),
    ("clear".toList, clear),
    ("=".toList, equals),
    ("sin".toList, function .sine),
    ("cos".toList, function .cosine),
    ("tan".toList, function .tangent),
    ("ln".toList, function .logarithm),
    ("neg".toList, function .negate),
    ("±".toList, function .negate),
    ("+/-".toList, function .negate),
    ("%".toList, function .percent),
    ("sqrt".toList, function .squareRoot),
    ("√".toList, function .squareRoot),
    ("sq".toList, function .square),
    ("x²".toList, function .square)]

/-- The key that the word `w` names. -/
def ofWord? (w : Text) : Option Key :=
  match spellings.lookup w, w with
  | some k, _ => some k
  | none, [c] => (digit? c).map digit
  | none, _ => none

/-- The key that the word `w` names, or an error. -/
def ofWord (w : Text) : Except UnknownKey Key :=
  match ofWord? w with
  | some k => .ok k
  | none => .error ⟨w⟩

/-- The keys that the words of `t` name. -/
def ofText (t : Text) : Except UnknownKey (List Key) :=
  t.words.mapM ofWord

/-- The spelling that the key is shown with. -/
def text : Key → Text
  | digit d => [d.val.digitChar]
  | operator op => [op.glyph]
  | parenthesis => "()".toList
  | point => ['.']
  | backspace => "back".toList
  | clear => ['C']
  | equals => ['=']
  | function f => f.name

/-- Every key is named by the spelling that it is shown with. -/
theorem ofWord?_text (k : Key) : ofWord? k.text = some k := by
  cases k with
  | digit d => revert d; decide
  | operator op => cases op <;> decide
  | function f => cases f <;> decide
  | _ => decide

end Key

end DeskCalculator
