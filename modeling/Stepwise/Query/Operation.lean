import Stepwise.Expression.Operator
import Stepwise.Query.RootCall

set_option autoImplicit false

/-! # Single operations

The shape `a op b` of a whole text, with decimal literals as operands and blanks anywhere
between the tokens. A minus sign that touches a literal belongs to it, so `2--3` is 2 minus
-3.
-/

namespace Stepwise

/-- One operation on two numbers. -/
structure BinaryOperation where
  left : Binary64
  op : Operator
  right : Binary64
  deriving DecidableEq

/-- Why a text is no single operation. -/
inductive OperationError
  | mismatch (place : Mismatch)
  /-- The text has the shape, but this literal is too large for binary64. -/
  | outOfRange (literal : Literal)
  deriving DecidableEq, Repr

/-- The wording of the failure. -/
def OperationError.message : OperationError → String
  | .mismatch place => place.parseMessage
  | .outOfRange literal =>
      "Parse error: operand out of range: " ++ String.ofList literal.text

/-- The operator at the start of a text, which has to be there. -/
def expectOperator (t : Text) : Except Mismatch (Operator × Text) :=
  match t with
  | c :: rest =>
      match Operator.ofSymbol? c with
      | some op => .ok (op, rest)
      | none => .error ⟨t, .operator⟩
  | [] => .error ⟨t, .operator⟩

/-- The two literals and the operator of a text of the shape `a op b`. -/
def splitOperation (t : Text) : Except Mismatch (Literal × Operator × Literal) := do
  let (left, t) ← scanSigned (Text.skipBlanks t)
  let (op, t) ← expectOperator (Text.skipBlanks t)
  let (right, t) ← scanSigned (Text.skipBlanks t)
  expectEnd (Text.skipBlanks t)
  return (left, op, right)

/-- The number of an operand. -/
def operandValue (literal : Literal) : Except OperationError Binary64 :=
  if literal.toBinary64.isFinite then .ok literal.toBinary64 else .error (.outOfRange literal)

/-- The single operation that a text is. -/
def parseOperation (t : Text) : Except OperationError BinaryOperation :=
  match splitOperation t with
  | .error place => .error (.mismatch place)
  | .ok (left, op, right) => do
      let left ← operandValue left
      let right ← operandValue right
      return ⟨left, op, right⟩

end Stepwise
