import Stepwise.Explainer
import Stepwise.History

set_option autoImplicit false

/-! # Sessions

An explainer together with the history of what it explained. Every query is recorded with its
trace, rejected ones as well.
-/

namespace Stepwise

/-- An explainer with a history. -/
structure Session where
  explainer : Explainer := {}
  history : History := {}

namespace Session

/-- The outcome of a query, and the session that has recorded it. -/
def run (s : Session) (query : String) : Outcome × Session :=
  let outcome := s.explainer.run query
  (outcome, { s with history := s.history.record query outcome.trace })

/-- The trace of the entry at a position of the history. -/
def select (s : Session) (index : Nat) : Option Trace := s.history.select index

/-- The session with an empty history. -/
def clear (s : Session) : Session := { s with history := s.history.clear }

/-- A session is a value between two queries, so it is never found at work on one. -/
def isBusy (_ : Session) : Bool := false

end Session

end Stepwise
