import Stepwise.Text.Blank
import Stepwise.Text.Join
import Stepwise.Trace

set_option autoImplicit false

/-! # Outlining a general question

A question that is not mathematical gets an outline of five sections. The second one lists
the parts of the question: the pieces between its punctuation marks, trimmed and numbered,
without the empty ones.
-/

namespace Stepwise

/-- The punctuation marks that end a part of a question. -/
def endsPart (c : Char) : Bool := c ∈ [':', ';', '.', '?', '!']

/-- The parts of a question. -/
def questionParts (question : Text) : List Text :=
  ((Text.splitOn endsPart question).map Text.trim).filter (· ≠ [])

/-- The line of a part. -/
def partLine (number : Nat) (part : Text) : String :=
  "Part " ++ toString number ++ ": " ++ String.ofList part

/-- The numbered lines of the parts. -/
def partLines (number : Nat) : List Text → List String
  | [] => []
  | part :: rest => partLine number part :: partLines (number + 1) rest

/-- The text of the section that lists the parts. -/
def breakdown (question : Text) : String :=
  let parts := questionParts question
  if parts = [] then "Single-part question." else joinWith "\n" (partLines 1 parts)

/-- The outline of a general question. -/
def outlineTopic (query : String) : Trace :=
  let question := Text.trim query.toList
  { title := "Structured explanation"
    steps := [
      { title := "Clarify the question"
        detail := some ("We are explaining: \"" ++ String.ofList question ++
          "\". We'll define key terms and identify the main idea.") },
      { title := "Break it into parts", detail := some (breakdown question) },
      { title := "State the simple core idea"
        detail := some "In one line: explain the concept simply before going deeper." },
      { title := "Explain each part logically"
        detail := some ("For every part: define it, show how it works with an example, " ++
          "and connect it to the main idea.") },
      { title := "Summarize and check understanding"
        detail := some ("Restate the key takeaway and, if this were interactive, " ++
          "ask a quick check question to confirm understanding.") }] }

end Stepwise
