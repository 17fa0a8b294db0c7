import Stepwise.History
import Stepwise.Number.Numeral
import Stepwise.Text.Lines

set_option autoImplicit false

/-! # Explanations in the terminal

A trace as lines of text: its title, its numbered steps, the lines of each detail and the
value of each step indented below it, and a closing line with the value of the trace. Values
are written as plain numerals.
-/

namespace Stepwise

/-- A line with its end. -/
def line (content : String) : String := content ++ "\n"

/-- Lines indented below the title of their step. -/
def indentLines : List Text → String
  | [] => ""
  | t :: rest => line ("   " ++ String.ofList t) ++ indentLines rest

/-- The lines of a detail. -/
def detailText (detail : String) : String := indentLines (Text.lines detail.toList)

/-- The lines of a step. -/
def Step.render (showDetails : Bool) (number : Nat) (s : Step) : String :=
  line (toString number ++ ". " ++ s.title) ++
    (if showDetails then (s.detail.map detailText).getD "" else "") ++
    ((s.result.map fun value => line ("   = " ++ value.plain)).getD "")

/-- The lines of steps that are numbered from a number on. -/
def renderSteps (showDetails : Bool) (number : Nat) : List Step → String
  | [] => ""
  | s :: rest => s.render showDetails number ++ renderSteps showDetails (number + 1) rest

/-- The lines of a trace, with the details or without. -/
def Trace.render (showDetails : Bool) (t : Trace) : String :=
  line t.title ++ renderSteps showDetails 1 t.steps ++
    ((t.finalResult.map fun value => line ("Result: " ++ value.plain)).getD "")

/-! ## The history -/

/-- A number right-aligned in two columns. -/
def twoColumns (n : Nat) : String := if n < 10 then " " ++ toString n else toString n

/-- The lines of entries that are numbered from a number on. -/
def renderEntries (number : Nat) : List HistoryEntry → String
  | [] => ""
  | e :: rest =>
      line (twoColumns number ++ ". " ++ e.query ++ "  [" ++ e.title ++ "]") ++
        renderEntries (number + 1) rest

/-- The lines of a list of entries, newest first. -/
def renderHistory (entries : List HistoryEntry) : String :=
  if entries.isEmpty then line "History is empty." else renderEntries 1 entries

end Stepwise
