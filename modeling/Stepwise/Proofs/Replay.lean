import Mathlib.Data.List.Forall2
import Stepwise.Expression.Basic
import Stepwise.Proofs.Scanning

set_option autoImplicit false

/-! # Evaluations, replayed

The reductions of an evaluation are the operations of the expression in post-order, each with the
values of its operands (`records_of_evaluate`). So they are enough to run the postfix form of the
expression on a stack: every operation takes its result from the next reduction, and the run ends
with the value and with no reduction left (`replay_of_evaluate`). An evaluation that fails stops at
the first operation in this order that has no value (`exists_failure_of_evaluate`).
-/

namespace Stepwise

/-! ## Operations in post-order -/

/-- An operation of an expression, with the expressions of its operands. -/
structure OperationNode where
  op : Operator
  left : Expression
  right : Expression
  deriving DecidableEq

/-- The operation as an expression of its own. -/
def OperationNode.expression (node : OperationNode) : Expression :=
  .binary node.op node.left node.right

/-- The operations of an expression: those of the left operand, those of the right operand, then
the operation itself. -/
def Expression.operations : Expression → List OperationNode
  | .number _ => []
  | .negation operand => operand.operations
  | .binary op left right => left.operations ++ right.operations ++ [⟨op, left, right⟩]

/-- The expression is evaluated to the value. -/
def Expression.HasValue (tree : Expression) (x : Binary64) : Prop :=
  ∃ evaluation, tree.evaluate = .ok evaluation ∧ evaluation.value = x

/-- The reduction is what the operation was carried out as: it has the operator, the values of the
operands, and what the operator makes of them. -/
structure Reduction.Records (step : Reduction) (node : OperationNode) : Prop where
  op : step.op = node.op
  left : node.left.HasValue step.left
  right : node.right.HasValue step.right
  value : step.value = node.op.apply step.left step.right

/-- The operation has no value although its operands have: it divides by zero, or its result is
not finite. -/
inductive OperationNode.FailsWith (node : OperationNode) : EvaluationError → Prop
  | divisionByZero {x y : Binary64} (hleft : node.left.HasValue x) (hright : node.right.HasValue y)
      (hop : node.op = .div) (hzero : y.isZero = true) : FailsWith node (.divisionByZero x)
  | overflow {x y : Binary64} (hleft : node.left.HasValue x) (hright : node.right.HasValue y)
      (hdivisor : ¬ (node.op = .div ∧ y.isZero = true))
      (hvalue : (node.op.apply x y).isFinite = false) : FailsWith node .overflow

/-- The operation is the first one that fails, and this is how. -/
structure OperationNode.IsFirstFailure (node : OperationNode) (tree : Expression)
    (cause : EvaluationError) : Prop where
  position : ∃ before after, tree.operations = before ++ node :: after ∧
    ∀ earlier ∈ before, ∃ x, earlier.expression.HasValue x
  failure : node.FailsWith cause

/-! ## Operations that are carried out -/

section

variable {op : Operator} {left right : Expression} {l r : Evaluation}
  (hl : left.evaluate = .ok l) (hr : right.evaluate = .ok r)
include hl hr

/-- When the operands have values, only the operation itself is left to carry out. -/
theorem evaluate_binary_of_ok :
    (Expression.binary op left right).evaluate =
      (reduce l.value op r.value).map fun step =>
        ⟨step.value, l.reductions ++ r.reductions ++ [step]⟩ := by
  rw [Expression.evaluate, hl, hr]
  show (reduce l.value op r.value >>= fun step => .ok (Evaluation.mk step.value _)) = _
  cases reduce l.value op r.value <;> rfl

theorem records_of_reduce {step : Reduction} (h : reduce l.value op r.value = .ok step) :
    step.Records ⟨op, left, right⟩ := by
  obtain ⟨-, -, rfl⟩ := reduce_eq_ok_iff.1 h
  exact ⟨rfl, ⟨l, hl, rfl⟩, ⟨r, hr, rfl⟩, rfl⟩

theorem failsWith_of_reduce {cause : EvaluationError}
    (h : reduce l.value op r.value = .error cause) :
    OperationNode.FailsWith ⟨op, left, right⟩ cause := by
  rcases reduce_eq_error_iff.1 h with ⟨hop, hzero, rfl⟩ | ⟨hdivisor, hvalue, rfl⟩
  · exact .divisionByZero ⟨l, hl, rfl⟩ ⟨r, hr, rfl⟩ hop hzero
  · exact .overflow ⟨l, hl, rfl⟩ ⟨r, hr, rfl⟩ hdivisor hvalue

end

/-- The reductions of an evaluation are the operations of the expression, one for one. -/
theorem records_of_evaluate {tree : Expression} {evaluation : Evaluation}
    (h : tree.evaluate = .ok evaluation) :
    List.Forall₂ Reduction.Records evaluation.reductions tree.operations := by
  induction tree generalizing evaluation with
  | number value =>
      cases h
      exact .nil
  | negation operand ih =>
      obtain ⟨inner, hinner, h⟩ := exists_ok_of_bind_eq_ok h
      cases h
      have hreductions := ih hinner
      exact hreductions
  | binary op left right ihleft ihright =>
      obtain ⟨l, hl, h⟩ := exists_ok_of_bind_eq_ok h
      obtain ⟨r, hr, h⟩ := exists_ok_of_bind_eq_ok h
      obtain ⟨step, hstep, h⟩ := exists_ok_of_bind_eq_ok h
      cases h
      have hlast : List.Forall₂ Reduction.Records [step] [⟨op, left, right⟩] :=
        .cons (records_of_reduce hl hr hstep) .nil
      exact List.rel_append (List.rel_append (ihleft hl) (ihright hr)) hlast

/-- All operations of an expression with a value have values. -/
theorem hasValue_of_mem_operations {tree : Expression} {evaluation : Evaluation}
    (h : tree.evaluate = .ok evaluation) :
    ∀ node ∈ tree.operations, ∃ x, node.expression.HasValue x := by
  induction tree generalizing evaluation with
  | number value => exact List.forall_mem_nil _
  | negation operand ih =>
      obtain ⟨inner, hinner, h⟩ := exists_ok_of_bind_eq_ok h
      exact ih hinner
  | binary op left right ihleft ihright =>
      obtain ⟨l, hl, hrest⟩ := exists_ok_of_bind_eq_ok h
      obtain ⟨r, hr, hrest⟩ := exists_ok_of_bind_eq_ok hrest
      intro node hnode
      rw [Expression.operations, List.mem_append, List.mem_append, List.mem_singleton] at hnode
      rcases hnode with (hnode | hnode) | rfl
      · exact ihleft hl node hnode
      · exact ihright hr node hnode
      · exact ⟨_, evaluation, h, rfl⟩

/-! ## The first failure -/

namespace OperationNode.IsFirstFailure

variable {node : OperationNode} {cause : EvaluationError} {op : Operator} {left right : Expression}

/-- The operations of the left operand come first. -/
theorem of_left (h : node.IsFirstFailure left cause) :
    node.IsFirstFailure (.binary op left right) cause := by
  obtain ⟨⟨before, after, hoperations, hbefore⟩, hfailure⟩ := h
  refine ⟨⟨before, after ++ right.operations ++ [⟨op, left, right⟩], ?_, hbefore⟩, hfailure⟩
  rw [Expression.operations, hoperations]
  simp

/-- The operations of the right operand come next, if the left operand has a value. -/
theorem of_right {l : Evaluation} (hl : left.evaluate = .ok l)
    (h : node.IsFirstFailure right cause) : node.IsFirstFailure (.binary op left right) cause := by
  obtain ⟨⟨before, after, hoperations, hbefore⟩, hfailure⟩ := h
  refine ⟨⟨left.operations ++ before, after ++ [⟨op, left, right⟩], ?_, ?_⟩, hfailure⟩
  · rw [Expression.operations, hoperations]
    simp
  · intro earlier hearlier
    rcases List.mem_append.1 hearlier with hearlier | hearlier
    · exact hasValue_of_mem_operations hl earlier hearlier
    · exact hbefore earlier hearlier

end OperationNode.IsFirstFailure

/-- A failed evaluation stops at the first operation in post-order that fails. -/
theorem exists_failure_of_evaluate {tree : Expression} {cause : EvaluationError}
    (h : tree.evaluate = .error cause) :
    ∃ node : OperationNode, node.IsFirstFailure tree cause := by
  induction tree with
  | number value => cases h
  | negation operand ih =>
      cases hoperand : operand.evaluate with
      | ok inner =>
          rw [Expression.evaluate, hoperand] at h
          cases h
      | error other =>
          rw [Expression.evaluate, hoperand] at h
          cases h
          obtain ⟨node, hnode⟩ := ih hoperand
          exact ⟨node, hnode.position, hnode.failure⟩
  | binary op left right ihleft ihright =>
      cases hl : left.evaluate with
      | error other =>
          rw [Expression.evaluate, hl] at h
          cases h
          obtain ⟨node, hnode⟩ := ihleft hl
          exact ⟨node, hnode.of_left⟩
      | ok l =>
          cases hr : right.evaluate with
          | error other =>
              rw [Expression.evaluate, hl, hr] at h
              cases h
              obtain ⟨node, hnode⟩ := ihright hr
              exact ⟨node, hnode.of_right hl⟩
          | ok r =>
              rw [evaluate_binary_of_ok hl hr] at h
              cases hreduce : reduce l.value op r.value with
              | ok step =>
                  rw [hreduce] at h
                  cases h
              | error other =>
                  rw [hreduce] at h
                  cases h
                  -- all operations of both operands come before the one that fails
                  refine ⟨⟨op, left, right⟩, ⟨_, [], rfl, fun earlier hearlier => ?_⟩,
                    failsWith_of_reduce hl hr hreduce⟩
                  rcases List.mem_append.1 hearlier with hearlier | hearlier
                  · exact hasValue_of_mem_operations hl earlier hearlier
                  · exact hasValue_of_mem_operations hr earlier hearlier

/-! ## The postfix form -/

/-- An instruction of the postfix form. -/
inductive Instruction
  | push (value : Binary64)
  | negate
  | operate (op : Operator)
  deriving DecidableEq

/-- The postfix form of an expression. -/
def Expression.instructions : Expression → List Instruction
  | .number value => [.push value]
  | .negation operand => operand.instructions ++ [.negate]
  | .binary op left right => left.instructions ++ right.instructions ++ [.operate op]

/-- A stack of values, the top first, and the reductions that are still to come. -/
structure Replay where
  stack : List Binary64
  pending : List Reduction
  deriving DecidableEq

namespace Replay

/-- One instruction. An operation takes two values from the stack and its result from the next
reduction, which has to be one of this operator on these values. -/
def execute : Replay → Instruction → Option Replay
  | ⟨stack, pending⟩, .push value => some ⟨value :: stack, pending⟩
  | ⟨x :: stack, pending⟩, .negate => some ⟨x.neg :: stack, pending⟩
  | ⟨right :: left :: stack, step :: pending⟩, .operate op =>
      if step.left = left ∧ step.op = op ∧ step.right = right then
        some ⟨step.value :: stack, pending⟩
      else none
  | _, _ => none

/-- Instructions in order. -/
def run (start : Replay) (instructions : List Instruction) : Option Replay :=
  instructions.foldlM execute start

theorem run_append (start : Replay) (instructions others : List Instruction) :
    start.run (instructions ++ others) =
      (start.run instructions).bind fun middle => middle.run others :=
  List.foldlM_append

theorem run_singleton (start : Replay) (instruction : Instruction) :
    start.run [instruction] = start.execute instruction := by
  simp [run]

/-- A reduction that was recorded is the result of its operation. -/
theorem execute_operate {x y : Binary64} {op : Operator} {step : Reduction}
    (h : reduce x op y = .ok step) (stack : List Binary64) (pending : List Reduction) :
    execute ⟨y :: x :: stack, step :: pending⟩ (.operate op) =
      some ⟨step.value :: stack, pending⟩ := by
  obtain ⟨-, -, rfl⟩ := reduce_eq_ok_iff.1 h
  rw [execute, if_pos ⟨rfl, rfl, rfl⟩]

end Replay

/-- The postfix form of an expression replaces its reductions by its value, whatever is below on the
stack and whatever comes next. -/
theorem replay_of_evaluate {tree : Expression} {evaluation : Evaluation}
    (h : tree.evaluate = .ok evaluation) (stack : List Binary64) (pending : List Reduction) :
    Replay.run ⟨stack, evaluation.reductions ++ pending⟩ tree.instructions =
      some ⟨evaluation.value :: stack, pending⟩ := by
  induction tree generalizing evaluation stack pending with
  | number value =>
      cases h
      rfl
  | negation operand ih =>
      obtain ⟨inner, hinner, h⟩ := exists_ok_of_bind_eq_ok h
      cases h
      rw [Expression.instructions, Replay.run_append, ih hinner]
      rfl
  | binary op left right ihleft ihright =>
      obtain ⟨l, hl, h⟩ := exists_ok_of_bind_eq_ok h
      obtain ⟨r, hr, h⟩ := exists_ok_of_bind_eq_ok h
      obtain ⟨step, hstep, h⟩ := exists_ok_of_bind_eq_ok h
      cases h
      show Replay.run ⟨stack, l.reductions ++ r.reductions ++ [step] ++ pending⟩
        (left.instructions ++ right.instructions ++ [.operate op]) = _
      rw [List.append_assoc, List.append_assoc, Replay.run_append, Replay.run_append, ihleft hl,
        Option.bind_some, ihright hr, Option.bind_some, Replay.run_singleton]
      exact Replay.execute_operate hstep stack pending

/-! ## Evaluations -/

/-- An evaluation that returns a value has one reduction for each operation, in post-order, and
these reductions replay it: the postfix form ends with the value alone on the stack and with no
reduction left. An evaluation that fails reports the first operation in post-order that fails. -/
theorem evaluate_replays (tree : Expression) :
    (∀ evaluation, tree.evaluate = .ok evaluation →
      List.Forall₂ Reduction.Records evaluation.reductions tree.operations ∧
      Replay.run ⟨[], evaluation.reductions⟩ tree.instructions =
        some ⟨[evaluation.value], []⟩) ∧
    ∀ cause, tree.evaluate = .error cause →
      ∃ node : OperationNode, node.IsFirstFailure tree cause := by
  refine ⟨fun evaluation h => ⟨records_of_evaluate h, ?_⟩,
    fun cause h => exists_failure_of_evaluate h⟩
  have hreplay := replay_of_evaluate h [] []
  rwa [List.append_nil] at hreplay

/-- `-(6 - 4) * 2`, with a negation that no reduction records. -/
def negatedDifference : Expression :=
  .binary .mul (.negation (.binary .sub (.number (.ofNat 6)) (.number (.ofNat 4))))
    (.number (.ofNat 2))

/-- `1 + 3 / (2 - 2) + 1 / 0`, with two divisions by zero. -/
def twoDivisions : Expression :=
  .binary .add
    (.binary .add (.number (.ofNat 1))
      (.binary .div (.number (.ofNat 3))
        (.binary .sub (.number (.ofNat 2)) (.number (.ofNat 2)))))
    (.binary .div (.number (.ofNat 1)) (.number (.ofNat 0)))

/-- The difference is recorded before the product, and the first of the divisions is reported. -/
theorem evaluate_replays_two_divisions :
    (∃ evaluation, negatedDifference.evaluate = .ok evaluation ∧
      evaluation.reductions.map Reduction.op = [.sub, .mul] ∧
      List.Forall₂ Reduction.Records evaluation.reductions negatedDifference.operations ∧
      Replay.run ⟨[], evaluation.reductions⟩ negatedDifference.instructions =
        some ⟨[evaluation.value], []⟩) ∧
    twoDivisions.evaluate = .error (.divisionByZero (.ofNat 3)) ∧
    ∃ node : OperationNode, node.IsFirstFailure twoDivisions (.divisionByZero (.ofNat 3)) := by
  have hops : negatedDifference.evaluate.map (fun evaluation =>
      evaluation.reductions.map Reduction.op) = .ok [.sub, .mul] := by decide +kernel
  have hfirst : twoDivisions.evaluate = .error (.divisionByZero (.ofNat 3)) := by decide +kernel
  refine ⟨?_, hfirst, (evaluate_replays twoDivisions).2 _ hfirst⟩
  cases hevaluate : negatedDifference.evaluate with
  | ok evaluation =>
      rw [hevaluate] at hops
      exact ⟨evaluation, rfl, Except.ok.inj hops,
        (evaluate_replays negatedDifference).1 evaluation hevaluate⟩
  | error cause =>
      rw [hevaluate] at hops
      cases hops

end Stepwise
