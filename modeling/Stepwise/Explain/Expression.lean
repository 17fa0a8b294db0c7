import Stepwise.Explain.Rejected
import Stepwise.Text.Join

set_option autoImplicit false

/-! # Explaining an expression

Two steps: the order of precedence, and the reductions with the value they lead to, or the
reason why the evaluation stopped.
-/

namespace Stepwise

/-- The order in which operators are carried out, in words. -/
def precedenceRule : String :=
  "We will evaluate the expression by operator precedence: " ++
    "parentheses → multiplication/division → addition/subtraction."

/-- The step that shows an evaluation. -/
def evaluationStep (e : Evaluation) : Step :=
  { title := "Evaluate with precedence"
    detail := some (
      if e.reductions = [] then
        "Applying the rules step by step yields the numeric value below."
      else
        "Applying the rules step by step:\n" ++
          joinWith "\n" (e.reductions.map Reduction.text))
    result := some e.value }

/-- The last step: the evaluation, or why there is none. -/
def outcomeStep : Except EvaluationError Evaluation → Step
  | .ok evaluation => evaluationStep evaluation
  | .error (.divisionByZero _) => divisionByZeroStep
  | .error .overflow => overflowStep "An intermediate value"

/-- The explanation of an expression; the title shows the text it was read from. -/
def explainExpression (text : Text) (e : Expression) : Trace :=
  { title := "Detailed steps for " ++ String.ofList text
    steps := [
      { title := "Tokenize the expression", detail := some precedenceRule },
      outcomeStep e.evaluate] }

end Stepwise
