import Stepwise.Number.Binary64

set_option autoImplicit false

/-! # The four operators -/

namespace Stepwise

/-- An arithmetic operator. -/
inductive Operator
  | add
  | sub
  | mul
  | div
  deriving DecidableEq, Repr

namespace Operator

/-- The operator a character stands for. -/
def ofSymbol? : Char → Option Operator
  | '+' => some .add
  | '-' => some .sub
  | '*' => some .mul
  | '/' => some .div
  | _ => none

/-- The character that stands for an operator. -/
def symbol : Operator → Char
  | .add => '+'
  | .sub => '-'
  | .mul => '*'
  | .div => '/'

@[simp] theorem ofSymbol?_symbol (op : Operator) : ofSymbol? op.symbol = some op := by
  cases op <;> rfl

theorem symbol_of_ofSymbol? {c : Char} {op : Operator} (h : ofSymbol? c = some op) :
    op.symbol = c := by
  unfold ofSymbol? at h
  split at h <;> simp_all [symbol] <;> subst h <;> rfl

/-- The text of an operator. -/
def text (op : Operator) : String := op.symbol.toString

/-- The name of the operation. -/
def name : Operator → String
  | .add => "addition"
  | .sub => "subtraction"
  | .mul => "multiplication"
  | .div => "division"

/-- The rule of the operation, in words. -/
def rule : Operator → String
  | .add => "Add the values: a + b"
  | .sub => "Subtract the second from the first: a − b"
  | .mul => "Multiply the values: a × b"
  | .div => "Divide the first by the second: a ÷ b"

/-- The value of the operation. A zero divisor is not refused here. -/
def apply : Operator → Binary64 → Binary64 → Binary64
  | .add => Binary64.add
  | .sub => Binary64.sub
  | .mul => Binary64.mul
  | .div => Binary64.div

end Operator

end Stepwise
