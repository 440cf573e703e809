import DeskCalculator.Text.Blank

/-!
# The ledger of results

Every successful computation is entered in a ledger with the expression and the result that
was shown.  Entries are only added at the end; `Ledger.toList` lists them from the oldest to
the newest, and `Ledger.recent` from the newest backwards.
-/

namespace DeskCalculator

/-- An expression and the result that was shown for it. -/
structure Entry where
  expression : Text
  result : Text
deriving DecidableEq, Repr

/-- The results so far. -/
structure Ledger where
  /-- The entries, newest first. -/
  newestFirst : List Entry
deriving DecidableEq, Repr

namespace Ledger

/-- The ledger without entries. -/
def empty : Ledger := ⟨[]⟩

/-- Adds an entry at the end. -/
def record (l : Ledger) (e : Entry) : Ledger := ⟨e :: l.newestFirst⟩

/-- All entries, oldest first. -/
def toList (l : Ledger) : List Entry := l.newestFirst.reverse

/-- The number of entries. -/
def size (l : Ledger) : Nat := l.newestFirst.length

/-- Whether there are no entries. -/
def isEmpty (l : Ledger) : Bool := l.newestFirst.isEmpty

/-- The entry with `i` entries before it. -/
def get? (l : Ledger) (i : Nat) : Option Entry := l.toList[i]?

/-- Up to `limit` entries, newest first. -/
def recent (l : Ledger) (limit : Nat) : List Entry := l.newestFirst.take limit

@[simp]
theorem toList_empty : empty.toList = [] := rfl

@[simp]
theorem toList_record (l : Ledger) (e : Entry) : (l.record e).toList = l.toList ++ [e] :=
  List.reverse_cons

@[simp]
theorem length_toList (l : Ledger) : l.toList.length = l.size :=
  List.length_reverse

theorem recent_eq (l : Ledger) (limit : Nat) : l.recent limit = l.toList.reverse.take limit := by
  rw [toList, List.reverse_reverse, recent]

end Ledger

end DeskCalculator
