import DeskCalculator.Json
import DeskCalculator.Session.Basic

/-!
# Sessions as data

A session written as a JSON value, for programs that read it: the state and the entries of
the ledger from the oldest to the newest.
-/

namespace DeskCalculator

/-- The state as a JSON object. -/
def State.toJson (s : State) : Json :=
  .object [("expression".toList, .string s.expression), ("display".toList, .string s.display),
    ("just_computed".toList, .bool s.justComputed)]

/-- The entry as a JSON object. -/
def Entry.toJson (e : Entry) : Json :=
  .object [("expression".toList, .string e.expression), ("result".toList, .string e.result)]

/-- The ledger as a JSON list, oldest entry first. -/
def Ledger.toJson (l : Ledger) : Json :=
  .list (l.toList.map Entry.toJson)

/-- The session as a JSON object with the members `state` and `history`. -/
def Session.toJson (s : Session) : Json :=
  .object [("state".toList, s.state.toJson), ("history".toList, s.ledger.toJson)]

/-- The session as a JSON list of its state and its history. -/
def Session.pairJson (s : Session) : Json :=
  .list [s.state.toJson, s.ledger.toJson]

end DeskCalculator
