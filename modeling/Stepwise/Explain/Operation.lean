import Stepwise.Explain.Rejected
import Stepwise.Query.Operation

set_option autoImplicit false

/-! # Explaining a single operation

Three steps: the operands, the rule, and the result. A division by zero and a result out of
range take the place of the result.
-/

namespace Stepwise

/-- The last step: the result, or why there is none. -/
def computeStep (o : BinaryOperation) : Step :=
  if o.op = .div ∧ o.right.isZero then divisionByZeroStep
  else
    let value := o.op.apply o.left o.right
    let shown := operationText o.left o.op o.right
    if value.isFinite then
      { title := "Compute"
        detail := some (shown ++ " = " ++ value.shown)
        result := some value }
    else overflowStep shown

/-- The explanation of a single operation. -/
def explainOperation (o : BinaryOperation) : Trace :=
  { title := "Detailed steps for " ++ operationText o.left o.op o.right
    steps := [
      { title := "Identify operands and operator"
        detail := some ("a = " ++ o.left.shown ++ ", operator = '" ++ o.op.text ++
          "', b = " ++ o.right.shown) },
      { title := "Recall the rule for " ++ o.op.name, detail := some o.op.rule },
      computeStep o] }

end Stepwise
