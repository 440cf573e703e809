import DeskCalculator.Expression.Evaluation
import DeskCalculator.Keypad.Key
import DeskCalculator.Session.Ledger
import DeskCalculator.Session.State

/-!
# Sessions

A session is the state of the keypad together with the ledger of results.  An `Action` is
anything that a user can do in it; `Session.act` is its effect and `Session.run` that of a
list of actions on a new session.  Pressing a key is an action, and so are emptying the ledger
and selecting one of its entries.
-/

namespace DeskCalculator

/-- What a user can do in a session. -/
inductive Action where
  /-- Types a digit; a number above nine is ignored. -/
  | digit (n : Nat)
  | point
  | operator (op : Operator)
  | parenthesis
  | backspace
  | clear
  | compute
  | function (f : UnaryFunction)
  | clearHistory
  /-- Selects the entry with `i` entries before it. -/
  | select (i : Nat)
deriving DecidableEq, Repr

/-- What pressing a key does. -/
def Key.action : Key → Action
  | digit d => .digit d.val
  | operator op => .operator op
  | parenthesis => .parenthesis
  | point => .point
  | backspace => .backspace
  | clear => .clear
  | equals => .compute
  | function f => .function f

/-- A keypad with its ledger. -/
structure Session where
  state : State
  ledger : Ledger
deriving DecidableEq, Repr

namespace Session

/-- The session before anything is done. -/
def initial : Session := ⟨.initial, .empty⟩

/-- Evaluates the expression and clears it.  A value is shown and entered in the ledger, an
error is shown only.  Without an expression nothing happens. -/
def compute (s : Session) : Session :=
  let t := s.state.expression
  if t = [] then s
  else
    match Expression.evaluate t with
    | .ok x =>
      ⟨⟨[], Display.text x, true⟩, s.ledger.record ⟨t, Display.text x⟩⟩
    | .error _ => { s with state := ⟨[], Display.error, true⟩ }

/-- Applies a function to the number on the display, where a text that is no numeral counts as
zero.  The result becomes both display and expression. -/
def function (s : Session) (f : UnaryFunction) : Session :=
  let result := Display.text (f.apply ((Numeral.read? s.state.display).getD 0))
  { s with state := ⟨result, result, true⟩ }

/-- Brings back the entry with `i` entries before it, as if it had just been computed. -/
def select? (s : Session) (i : Nat) : Option Session :=
  (s.ledger.get? i).map fun e => { s with state := ⟨e.expression, e.result, true⟩ }

/-- The effect of an action.  Selecting an entry that does not exist has none. -/
def act (s : Session) : Action → Session
  | .digit n => { s with state := s.state.digit n }
  | .point => { s with state := s.state.point }
  | .operator op => { s with state := s.state.operator op }
  | .parenthesis => { s with state := s.state.parenthesis }
  | .backspace => { s with state := s.state.backspace }
  | .clear => { s with state := .initial }
  | .compute => s.compute
  | .function f => s.function f
  | .clearHistory => { s with ledger := .empty }
  | .select i => (s.select? i).getD s

/-- The effect of several actions, one after the other. -/
def acts (s : Session) (as : List Action) : Session :=
  as.foldl act s

/-- The session that a list of actions leads to. -/
def run (as : List Action) : Session :=
  initial.acts as

/-- The effect of pressing several keys, one after the other. -/
def press (s : Session) (ks : List Key) : Session :=
  s.acts (ks.map Key.action)

@[simp]
theorem acts_nil (s : Session) : s.acts [] = s := rfl

theorem acts_append (s : Session) (as bs : List Action) :
    s.acts (as ++ bs) = (s.acts as).acts bs :=
  List.foldl_append

theorem press_append (s : Session) (ks ls : List Key) :
    s.press (ks ++ ls) = (s.press ks).press ls := by
  rw [press, List.map_append, acts_append, press, press]

end Session

end DeskCalculator
