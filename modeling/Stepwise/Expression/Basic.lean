import Stepwise.Expression.Operator
import Stepwise.Number.Numeral

set_option autoImplicit false

/-! # Expressions and their evaluation

An expression is a tree of numbers, negations and binary operations; parentheses leave no
trace in it. Evaluation works from the left operand to the right one and then the operation,
and records every operation it carries out as a `Reduction`. It stops at the first division
by zero and at the first result that is not finite.
-/

namespace Stepwise

/-- An arithmetic expression. -/
inductive Expression
  | number (value : Binary64)
  | negation (operand : Expression)
  | binary (op : Operator) (left right : Expression)
  deriving DecidableEq

/-- One operation carried out during evaluation. -/
structure Reduction where
  left : Binary64
  op : Operator
  right : Binary64
  value : Binary64
  deriving DecidableEq

/-- An operation as an explanation shows it. -/
def operationText (left : Binary64) (op : Operator) (right : Binary64) : String :=
  left.shown ++ " " ++ op.text ++ " " ++ right.shown

/-- The line of a reduction. -/
def Reduction.text (r : Reduction) : String :=
  operationText r.left r.op r.right ++ " = " ++ r.value.shown

/-- The value of an expression, and the operations that led to it in the order in which they
were carried out. -/
structure Evaluation where
  value : Binary64
  reductions : List Reduction
  deriving DecidableEq

/-- Why an expression has no value. -/
inductive EvaluationError
  | divisionByZero (dividend : Binary64)
  | overflow
  deriving DecidableEq

/-- The wording of a failed evaluation. -/
def EvaluationError.message : EvaluationError → String
  | .divisionByZero dividend => "division by zero: " ++ dividend.plain ++ " / 0"
  | .overflow => "result is too large to represent"

/-- One operation on two values. -/
def reduce (left : Binary64) (op : Operator) (right : Binary64) :
    Except EvaluationError Reduction :=
  if op = .div ∧ right.isZero then .error (.divisionByZero left)
  else
    let value := op.apply left right
    if value.isFinite then .ok ⟨left, op, right, value⟩ else .error .overflow

section

variable {x y : Binary64} {op : Operator}

/-- An operation is carried out if it does not divide by zero and its result is finite. -/
theorem reduce_eq_ok_iff {step : Reduction} :
    reduce x op y = .ok step ↔
      ¬ (op = .div ∧ y.isZero = true) ∧ (op.apply x y).isFinite = true ∧
        step = ⟨x, op, y, op.apply x y⟩ := by
  unfold reduce
  split
  · next hzero => simp [hzero]
  · next hdivisor =>
      dsimp only
      split
      · next hvalue => exact ⟨fun h => ⟨hdivisor, hvalue, (Except.ok.inj h).symm⟩,
          fun h => congrArg Except.ok h.2.2.symm⟩
      · next hvalue => simp [hvalue]

/-- A division by zero is refused first, and then a result that is not finite. -/
theorem reduce_eq_error_iff {cause : EvaluationError} :
    reduce x op y = .error cause ↔
      (op = .div ∧ y.isZero = true ∧ cause = .divisionByZero x) ∨
        (¬ (op = .div ∧ y.isZero = true) ∧ (op.apply x y).isFinite = false ∧
          cause = .overflow) := by
  unfold reduce
  split
  · next hzero =>
      constructor
      · intro h
        exact .inl ⟨hzero.1, hzero.2, (Except.error.inj h).symm⟩
      · rintro (⟨-, -, rfl⟩ | ⟨hdivisor, -⟩)
        · rfl
        · exact absurd hzero hdivisor
  · next hdivisor =>
      dsimp only
      split
      · next hvalue => grind
      · next hvalue => grind

end

/-- The value of an expression with its reductions. -/
def Expression.evaluate : Expression → Except EvaluationError Evaluation
  | .number value => .ok ⟨value, []⟩
  | .negation operand => do
      let inner ← operand.evaluate
      return ⟨inner.value.neg, inner.reductions⟩
  | .binary op left right => do
      let l ← left.evaluate
      let r ← right.evaluate
      let step ← reduce l.value op r.value
      return ⟨step.value, l.reductions ++ r.reductions ++ [step]⟩

end Stepwise
