import Stepwise.Trace

set_option autoImplicit false

/-! # The history of explanations

The last explanations, newest first. Recording puts an entry in front and lets the oldest
ones beyond the capacity go; looking at the history leaves it as it is.
-/

namespace Stepwise

/-- An explained query. -/
structure HistoryEntry where
  query : String
  title : String
  steps : List Step
  deriving DecidableEq

namespace HistoryEntry

/-- The entry of a query and its trace. -/
def ofTrace (query : String) (trace : Trace) : HistoryEntry := ⟨query, trace.title, trace.steps⟩

/-- The trace of an entry. -/
def trace (e : HistoryEntry) : Trace := ⟨e.title, e.steps⟩

end HistoryEntry

/-- The entries of a history, newest first. -/
structure History where
  entries : List HistoryEntry := []
  deriving DecidableEq

namespace History

/-- The largest number of entries. -/
def capacity : Nat := 10

/-- The history without entries. -/
def empty : History := {}

/-- The history with one explanation more. -/
def record (h : History) (query : String) (trace : Trace) : History :=
  ⟨(.ofTrace query trace :: h.entries).take capacity⟩

/-- The entry at a position, counted from the newest, which is at zero. -/
def get? (h : History) (index : Nat) : Option HistoryEntry := h.entries[index]?

/-- The trace of the entry at a position. -/
def select (h : History) (index : Nat) : Option Trace := (h.get? index).map HistoryEntry.trace

/-- The number of entries. -/
def size (h : History) : Nat := h.entries.length

/-- There are no entries. -/
def isEmpty (h : History) : Bool := h.entries.isEmpty

/-- The history after everything is forgotten. -/
def clear (_ : History) : History := empty

end History

end Stepwise
