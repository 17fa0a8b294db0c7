import Stepwise.Explain.Expression
import Stepwise.Explain.Operation
import Stepwise.Proofs.OperationTexts

set_option autoImplicit false

/-! # Single operations as expressions

A text of the shape `a op b` can be read in two ways: as a single operation, or as an
expression. The two readings agree on every text of this shape. A signed operand is a negation
in the tree, its value is the value of the signed literal, and the one operation of the tree is
carried out as the single operation is.
-/

namespace Stepwise

open Grammar

/-! ## The shape -/

theorem parseOperation_sound {t : Text} {o : BinaryOperation} (h : parseOperation t = .ok o) :
    ∃ left right : Literal, splitOperation t = .ok (left, o.op, right) ∧
      o.left = left.toBinary64 ∧ left.toBinary64.isFinite = true ∧
      o.right = right.toBinary64 ∧ right.toBinary64.isFinite = true := by
  obtain ⟨left, right, hshape, hleft, hright, hlfinite, hrfinite⟩ := parseOperation_eq_ok_iff.1 h
  exact ⟨left, right, splitOperation_eq_ok_iff.2 hshape, hleft.symm, hleft ▸ hlfinite, hright.symm,
    hright ▸ hrfinite⟩

/-! ## Signs -/

theorem Binary64.neg_ofRatio (negative : Bool) (num den : Nat) :
    (ofRatio negative num den).neg = ofRatio (!negative) num den := by
  unfold ofRatio
  split <;> rfl

theorem Binary64.isFinite_neg (x : Binary64) : x.neg.isFinite = x.isFinite := by
  cases x <;> rfl

theorem Decimal.neg_toBinary64 (negative : Bool) (d : Decimal) :
    (d.toBinary64 negative).neg = d.toBinary64 (!negative) := by
  unfold Decimal.toBinary64
  split <;> exact Binary64.neg_ofRatio _ _ _

/-- The value of a literal with a minus sign is the negation of the value without it. -/
theorem Literal.toBinary64_eq (l : Literal) :
    l.toBinary64 = if l.negative then l.unsigned.toBinary64.neg else l.unsigned.toBinary64 := by
  obtain ⟨negative, whole, fraction⟩ := l
  cases negative with
  | false => rfl
  | true => exact (Decimal.neg_toBinary64 false _).symm

theorem Literal.isFinite_unsigned (l : Literal) :
    l.unsigned.toBinary64.isFinite = l.toBinary64.isFinite := by
  rw [l.toBinary64_eq]
  split
  · exact (Binary64.isFinite_neg _).symm
  · rfl

/-! ## Operands -/

namespace Literal

/-- The tokens of an operand: its sign, if it has one, is an operator. -/
def operandTokens (l : Literal) : List Token :=
  if l.negative then [.operator .sub, .number l.unsigned] else [.number l.unsigned]

/-- The expression of an operand: a number or the negation of a number. -/
def operand (l : Literal) : Expression :=
  if l.negative then .negation (.number l.unsigned.toBinary64)
  else .number l.unsigned.toBinary64

theorem IsDecimal.isNumber_unsigned {l : Literal} (h : l.IsDecimal) : IsNumber l.unsigned := by
  cases h with
  | whole h hd => exact .whole h hd
  | pointed h hd hf hfd => exact .pointed h hd hfd

theorem spells_operand {l : Literal} {blanks : Text} (hblanks : AllBlank blanks)
    (h : l.IsDecimal) : Spells l.operandTokens (blanks ++ l.text) := by
  have hnumber : (Token.number l.unsigned).WellFormed := h.isNumber_unsigned
  rw [operandTokens, l.text_eq]
  cases l.negative with
  | false => exact .singleton hblanks hnumber
  | true =>
      have hsign : Spells [.operator .sub] (blanks ++ ['-']) := .singleton hblanks trivial
      simpa [Token.text] using hsign.append (.singleton allBlank_nil hnumber)

theorem derives_operand {l : Literal} (h : l.toBinary64.isFinite = true) (depth : Nat) :
    Derives depth .factor l.operandTokens l.operand := by
  have hnumber : Derives depth .primary [.number l.unsigned] (.number l.unsigned.toBinary64) :=
    .number (l.isFinite_unsigned.trans h)
  rw [operandTokens, operand]
  cases l.negative with
  | false => exact .unsigned hnumber
  | true => exact .negated hnumber

theorem evaluate_operand (l : Literal) : l.operand.evaluate = .ok ⟨l.toBinary64, []⟩ := by
  rw [operand, l.toBinary64_eq]
  cases l.negative <;> rfl

end Literal

/-! ## The tree of an operation -/

theorem derives_binary {depth : Nat} {tokens operand : List Token} {left right : Expression}
    (op : Operator) (hleft : Derives depth .factor tokens left)
    (hright : Derives depth .factor operand right) :
    Derives depth .sum (tokens ++ .operator op :: operand) (.binary op left right) := by
  cases op with
  | add => exact .additive (.inl rfl) (.loneProduct (.loneFactor hleft)) (.loneFactor hright)
  | sub => exact .additive (.inr rfl) (.loneProduct (.loneFactor hleft)) (.loneFactor hright)
  | mul => exact .loneProduct (.multiplicative (.inl rfl) (.loneFactor hleft) hright)
  | div => exact .loneProduct (.multiplicative (.inr rfl) (.loneFactor hleft) hright)

/-- A text of the shape of an operation is an expression with this one operation. -/
theorem parseExpression_of_splitOperation {t : Text} {left right : Literal} {op : Operator}
    (h : splitOperation t = .ok (left, op, right)) (hleft : left.toBinary64.isFinite = true)
    (hright : right.toBinary64.isFinite = true) :
    parseExpression t = .ok (.binary op left.operand right.operand) := by
  obtain @⟨before, gap, gap', after, hbefore, hld, hgap, hgap', hrd, hafter⟩ :=
    splitOperation_eq_ok_iff.1 h
  -- the gap behind the operator belongs to the first token of the right operand
  have hop : Spells (.operator op :: right.operandTokens)
      (gap ++ [op.symbol] ++ (gap' ++ right.text)) :=
    .cons hgap trivial (Literal.spells_operand hgap' hrd)
  have hspells := (Literal.spells_operand hbefore hld).append hop
  have hderives := derives_binary op (Literal.derives_operand hleft maxNesting)
    (Literal.derives_operand hright maxNesting)
  simpa [Token.text] using parseExpression_complete hspells hafter.allWhiteSpace hderives

/-! ## Evaluation and explanation -/

theorem evaluate_binary {left right : Expression} {x y : Binary64} (op : Operator)
    (hleft : left.evaluate = .ok ⟨x, []⟩) (hright : right.evaluate = .ok ⟨y, []⟩) :
    (Expression.binary op left right).evaluate =
      (reduce x op y).map fun step => ⟨step.value, [step]⟩ := by
  rw [Expression.evaluate, hleft, hright]
  show (reduce x op y >>= fun step => .ok (Evaluation.mk step.value [step])) = _
  cases reduce x op y <;> rfl

/-- The last step of an operation shows its reduction, or why there is none. -/
theorem computeStep_eq (o : BinaryOperation) :
    computeStep o = match reduce o.left o.op o.right with
      | .ok step => { title := "Compute", detail := some step.text, result := some step.value }
      | .error (.divisionByZero _) => divisionByZeroStep
      | .error .overflow => overflowStep (operationText o.left o.op o.right) := by
  unfold computeStep reduce
  split
  · rfl
  · dsimp only
    split <;> rfl

/-- A reduction keeps its operands. -/
theorem reduce_eq_ok {x y : Binary64} {op : Operator} {step : Reduction}
    (h : reduce x op y = .ok step) : step = ⟨x, op, y, step.value⟩ := by
  obtain ⟨-, -, rfl⟩ := reduce_eq_ok_iff.1 h
  rfl

theorem explainOperation_getLast? (o : BinaryOperation) :
    (explainOperation o).steps.getLast? = some (computeStep o) := rfl

theorem explainOperation_finalResult (o : BinaryOperation) :
    (explainOperation o).finalResult = (computeStep o).result :=
  Trace.finalResult_concat _ [_, _] (computeStep o) (by simp)

theorem explainExpression_finalResult (t : Text) (e : Expression) :
    (explainExpression t e).finalResult = (outcomeStep e.evaluate).result :=
  Trace.finalResult_concat _ [_] (outcomeStep e.evaluate) (by simp)

/-! ## Agreement -/

/-- A number or the negation of a number. -/
def Expression.IsOperand : Expression → Prop
  | .number _ => True
  | .negation (.number _) => True
  | _ => False

theorem Literal.isOperand_operand (l : Literal) : l.operand.IsOperand := by
  rw [operand]
  cases l.negative <;> trivial

/-- The evaluation that carries out one operation fails in the two ways in which the operation
does, and the last step of the operation tells which. -/
structure CarriesOut (tree : Expression) (o : BinaryOperation) (last : Step) : Prop where
  divisionByZero : (∃ dividend, tree.evaluate = .error (.divisionByZero dividend)) ↔
    last.title = "Check division by zero"
  overflow : tree.evaluate = .error .overflow ↔ last.title = "Check the magnitude"
  value : last.title ≠ "Check division by zero" → last.title ≠ "Check the magnitude" →
    ∃ value, tree.evaluate = .ok ⟨value, [⟨o.left, o.op, o.right, value⟩]⟩ ∧
      last.title = "Compute" ∧ last.result = some value

theorem carriesOut_computeStep {tree : Expression} {o : BinaryOperation}
    (h : tree.evaluate =
      (reduce o.left o.op o.right).map fun step => ⟨step.value, [step]⟩) :
    CarriesOut tree o (computeStep o) := by
  rw [computeStep_eq]
  cases hreduce : reduce o.left o.op o.right with
  | ok step =>
      have hevaluate : tree.evaluate = .ok ⟨step.value, [step]⟩ := by rw [h, hreduce]; rfl
      constructor
      · simp [hevaluate]
      · simp [hevaluate]
      · intro _ _
        refine ⟨step.value, ?_, rfl, rfl⟩
        rw [hevaluate, ← reduce_eq_ok hreduce]
  | error cause =>
      have hevaluate : tree.evaluate = .error cause := by rw [h, hreduce]; rfl
      cases cause with
      | divisionByZero dividend =>
          constructor
          · simp [hevaluate, divisionByZeroStep]
          · simp [hevaluate, divisionByZeroStep]
          · intro hne _
            exact absurd rfl hne
      | overflow =>
          constructor
          · simp [hevaluate, overflowStep]
          · simp [hevaluate, overflowStep]
          · intro _ hne
            exact absurd rfl hne

/-- The two explanations have the same value if the tree carries out the operation. -/
theorem finalResult_eq_of_evaluate (t : Text) {tree : Expression} {o : BinaryOperation}
    (h : tree.evaluate =
      (reduce o.left o.op o.right).map fun step => ⟨step.value, [step]⟩) :
    (explainOperation o).finalResult = (explainExpression t tree).finalResult := by
  rw [explainOperation_finalResult, explainExpression_finalResult, computeStep_eq, h]
  cases reduce o.left o.op o.right with
  | ok step => rfl
  | error cause => cases cause <;> rfl

/-- A text that is a single operation is also an expression. The tree is this operation on two
operands, its evaluation carries out the operation, and both explanations end with the same
value. -/
theorem parseOperation_agrees {t : Text} {o : BinaryOperation} (h : parseOperation t = .ok o) :
    ∃ left right last, parseExpression t = .ok (.binary o.op left right) ∧
      left.IsOperand ∧ right.IsOperand ∧
      (explainOperation o).steps.getLast? = some last ∧
      CarriesOut (.binary o.op left right) o last ∧
      (explainOperation o).finalResult =
        (explainExpression t (.binary o.op left right)).finalResult := by
  obtain ⟨l, r, hsplit, hleft, hlfinite, hright, hrfinite⟩ := parseOperation_sound h
  have hevaluate := evaluate_binary o.op l.evaluate_operand r.evaluate_operand
  rw [← hleft, ← hright] at hevaluate
  exact ⟨l.operand, r.operand, computeStep o,
    parseExpression_of_splitOperation hsplit hlfinite hrfinite, l.isOperand_operand,
    r.isOperand_operand, explainOperation_getLast? o, carriesOut_computeStep hevaluate,
    finalResult_eq_of_evaluate t hevaluate⟩

/-- A division by negative zero, where the divisor of the tree is a negation. -/
theorem parseOperation_agrees_negative_zero :
    parseOperation ['5', '/', '-', '0'] = .ok ⟨.ofNat 5, .div, .zero true⟩ ∧
    ∃ left right last,
      parseExpression ['5', '/', '-', '0'] = .ok (.binary .div left right) ∧
      left.IsOperand ∧ right.IsOperand ∧
      (explainOperation ⟨.ofNat 5, .div, .zero true⟩).steps.getLast? = some last ∧
      CarriesOut (.binary .div left right) ⟨.ofNat 5, .div, .zero true⟩ last ∧
      (explainOperation ⟨.ofNat 5, .div, .zero true⟩).finalResult =
        (explainExpression ['5', '/', '-', '0'] (.binary .div left right)).finalResult := by
  have h : parseOperation ['5', '/', '-', '0'] = .ok ⟨.ofNat 5, .div, .zero true⟩ := by
    decide +kernel
  exact ⟨h, parseOperation_agrees h⟩

end Stepwise
