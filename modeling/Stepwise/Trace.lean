import Stepwise.Number.Binary64

set_option autoImplicit false

/-! # Explanation traces

A trace is a title and the steps of an explanation in order. A step may carry a text of one
or more lines and a value; the value of the trace is the one its last such step carries.
-/

namespace Stepwise

/-- One step of an explanation. -/
structure Step where
  title : String
  detail : Option String := none
  result : Option Binary64 := none
  deriving DecidableEq

/-- A complete explanation. -/
structure Trace where
  title : String
  steps : List Step
  deriving DecidableEq

namespace Trace

/-- The value carried by the last step that has one. -/
def finalResult (t : Trace) : Option Binary64 := t.steps.reverse.findSome? Step.result

/-- The value of a trace whose last step is the only one that may carry a value. -/
theorem finalResult_concat (title : String) (steps : List Step) (last : Step)
    (h : ∀ step ∈ steps, step.result = none) :
    finalResult ⟨title, steps ++ [last]⟩ = last.result := by
  have hnone : steps.reverse.findSome? Step.result = none :=
    List.findSome?_eq_none_iff.2 fun step hstep => h step (List.mem_reverse.1 hstep)
  simp only [finalResult, List.reverse_append, List.reverse_singleton, List.singleton_append,
    List.findSome?_cons, hnone]
  cases last.result <;> rfl

/-- Some step carries a value. -/
def hasResult (t : Trace) : Bool := t.finalResult.isSome

end Trace

end Stepwise
