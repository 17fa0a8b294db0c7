import Stepwise.Rejection
import Stepwise.Trace

set_option autoImplicit false

/-! # Explaining a rejection

The traces of rejected queries: one step that says what kind of input would have been
explained. The two steps that end an explanation without a value stand here as well.
-/

namespace Stepwise

/-- The trace of a text that no pattern explains. -/
def notRecognized : Trace :=
  { title := "Could not parse as math"
    steps := [
      { title := "Input not recognized as a supported math pattern"
        detail := some ("Try formats like \"sqrt(49)\", \"square root of 144\", \"12 * 3\", " ++
          "or a numeric expression with + - * / and parentheses.") }] }

/-- The trace of a root call whose argument is no radicand. -/
def explainRadicandError (cause : RadicandError) : Trace :=
  { title := "Cannot simplify this square root"
    steps := [
      { title := "Radicand must be a non-negative integer"
        detail := some ("The number under the root, " ++ cause.message ++
          ". Square roots are explained for whole numbers such as sqrt(49) or sqrt(72).") }] }

/-- The trace shown for a rejection. -/
def explainRejection : Rejection → Trace
  | .invalidRadicand cause => explainRadicandError cause
  | _ => notRecognized

/-! ## Steps without a value -/

/-- The last step of an explanation that stops at a division by zero. -/
def divisionByZeroStep : Step :=
  { title := "Check division by zero"
    detail := some "Division by zero is undefined, so the expression has no real value." }

/-- The last step of an explanation that stops at a value out of range. -/
def overflowStep (what : String) : Step :=
  { title := "Check the magnitude"
    detail := some (what ++
      " is too large to represent as a finite number, so no value is reported.") }

end Stepwise
