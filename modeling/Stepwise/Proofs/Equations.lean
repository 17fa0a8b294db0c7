import Stepwise.Proofs.Finiteness
import Stepwise.Proofs.Lines
import Stepwise.Proofs.Literals
import Stepwise.Proofs.PlainNumerals

set_option autoImplicit false

/-! # The lines of operations, read back

The line `a op b = v` of an operation can be given back to the program. The text in front of the
equals sign is read as a single operation, with the same operator and numerically with the same
operands, and the result of this operation is shown as the text behind the sign
(`Reduction.IsConfirmedBy`). The line has only one equals sign, so there is no other way to take it
for an equation (`isConfirmedBy_of_isEquation`).
-/

namespace Stepwise

/-! ## Operations, written and read -/

/-- The same operator on numerically the same operands. -/
structure BinaryOperation.Agrees (o p : BinaryOperation) : Prop where
  op : o.op = p.op
  left : o.left.SameNumber p.left
  right : o.right.SameNumber p.right

theorem toList_operationText (x y : Binary64) (op : Operator) :
    (operationText x op y).toList =
      x.shown.toList ++ ' ' :: op.symbol :: ' ' :: y.shown.toList := by
  simp [operationText, Operator.text]

/-- A shown operation is read back. -/
theorem exists_parseOperation_operationText {x y : Binary64} (hx : x.isFinite = true)
    (hy : y.isFinite = true) (op : Operator) :
    ∃ o, parseOperation (operationText x op y).toList = .ok o ∧ o.Agrees ⟨x, op, y⟩ := by
  obtain ⟨l, hl, hltext, hlvalue⟩ := x.exists_literal_shown hx
  obtain ⟨r, hr, hrtext, hrvalue⟩ := y.exists_literal_shown hy
  refine ⟨⟨l.toBinary64, op, r.toBinary64⟩, ?_, rfl, hlvalue, hrvalue⟩
  have hlfinite := hlvalue.isFinite.trans hx
  have hrfinite := hrvalue.isFinite.trans hy
  have hspace : AllBlank [' '] := by decide
  rw [toList_operationText, hltext, hrtext]
  refine parseOperation_eq_ok_iff.2 ⟨l, r, ?_, rfl, rfl, hlfinite, hrfinite⟩
  simpa using OperationText.intro allBlank_nil hl hspace hspace hr allBlank_nil

/-! ## Confirmed results -/

/-- The text is read as the operation that was carried out, and the result of the operation that is
read is shown as the value. -/
def Reduction.IsConfirmedBy (step : Reduction) (text value : Text) : Prop :=
  ∃ o, parseOperation text = .ok o ∧ o.Agrees ⟨step.left, step.op, step.right⟩ ∧
    (o.op.apply o.left o.right).shown.toList = value

/-- The operation was carried out on finite values, and has this finite value. -/
structure Reduction.IsSound (step : Reduction) : Prop where
  finite : step.IsFinite
  value : step.value = step.op.apply step.left step.right

theorem value_of_reduce {x y : Binary64} {op : Operator} {step : Reduction}
    (h : reduce x op y = .ok step) : step.value = step.op.apply step.left step.right := by
  obtain ⟨-, -, rfl⟩ := reduce_eq_ok_iff.1 h
  rfl

/-- Every reduction of an evaluation has the value of its operation. -/
theorem value_of_mem_reductions {tree : Expression} {evaluation : Evaluation}
    (h : tree.evaluate = .ok evaluation) :
    ∀ step ∈ evaluation.reductions, step.value = step.op.apply step.left step.right := by
  induction tree generalizing evaluation with
  | number value =>
      cases h
      exact List.forall_mem_nil _
  | negation operand ih =>
      obtain ⟨inner, hinner, h⟩ := exists_ok_of_bind_eq_ok h
      cases h
      intro step hstep
      exact ih hinner step hstep
  | binary op left right ihleft ihright =>
      obtain ⟨l, hl, h⟩ := exists_ok_of_bind_eq_ok h
      obtain ⟨r, hr, h⟩ := exists_ok_of_bind_eq_ok h
      obtain ⟨last, hlast, h⟩ := exists_ok_of_bind_eq_ok h
      cases h
      intro step hstep
      rw [List.mem_append, List.mem_append, List.mem_singleton] at hstep
      rcases hstep with (hstep | hstep) | rfl
      · exact ihleft hl step hstep
      · exact ihright hr step hstep
      · exact value_of_reduce hlast

theorem isSound_of_reduce {x y : Binary64} {op : Operator} {step : Reduction}
    (hx : x.isFinite = true) (hy : y.isFinite = true) (h : reduce x op y = .ok step) :
    step.IsSound :=
  ⟨isFinite_of_reduce hx hy h, value_of_reduce h⟩

/-- An evaluation of finite numbers carries out sound operations only. -/
theorem isSound_of_evaluate {tree : Expression} (htree : tree.LiteralsFinite)
    {evaluation : Evaluation} (h : tree.evaluate = .ok evaluation) :
    ∀ step ∈ evaluation.reductions, step.IsSound :=
  fun step hstep =>
    ⟨(isFinite_of_evaluate htree h).reductions step hstep, value_of_mem_reductions h step hstep⟩

/-- A sound operation is confirmed by its own line. -/
theorem Reduction.IsSound.isConfirmedBy {step : Reduction} (h : step.IsSound) :
    step.IsConfirmedBy (operationText step.left step.op step.right).toList
      step.value.shown.toList := by
  obtain ⟨o, hparse, hagrees⟩ :=
    exists_parseOperation_operationText h.finite.left h.finite.right step.op
  -- a zero may have lost its sign on the way, so the value is the same but for the sign of a zero
  have hvalue : (o.op.apply o.left o.right).SameNumber step.value := by
    rw [h.value, show o.op = step.op from hagrees.op]
    exact hagrees.left.apply hagrees.right h.finite.left h.finite.right h.finite.divisor
  exact ⟨o, hparse, hagrees, by rw [hvalue.shown]⟩

/-! ## Equations -/

/-- The line is the text, an equals sign between spaces and the value, and the text has the form of
an operation: an operator between spaces. -/
structure IsEquation (line text value : Text) : Prop where
  eq : line = text ++ [' ', '=', ' '] ++ value
  form : ∃ (a : Text) (op : Operator) (b : Text), text = a ++ [' ', op.symbol, ' '] ++ b

theorem not_isEquation_of_notMem {line : Text} (h : '=' ∉ line) (text value : Text) :
    ¬ IsEquation line text value := by
  intro heq
  exact h (by rw [heq.eq]; simp)

/-- The operator of an equation is one of the pieces between the spaces. -/
theorem IsEquation.symbol_mem {line text value : Text} (h : IsEquation line text value) :
    ∃ op : Operator, [op.symbol] ∈ Text.splitOn (· = ' ') line := by
  obtain ⟨a, op, b, htext⟩ := h.form
  have hsymbol : Text.splitOn (· = ' ') [op.symbol] = [[op.symbol]] := by
    cases op <;> rfl
  have hline : line = a ++ ' ' :: ([op.symbol] ++ ' ' :: (b ++ ([' ', '=', ' '] ++ value))) := by
    rw [h.eq, htext]
    simp
  refine ⟨op, ?_⟩
  rw [hline, Text.splitOn_append_cons (by decide), Text.splitOn_append_cons (by decide), hsymbol]
  simp

/-- A line with one equals sign is an equation in one way at most. -/
theorem IsEquation.unique {a b text value : Text} (ha : '=' ∉ a) (hb : '=' ∉ b)
    (h : IsEquation (a ++ [' ', '=', ' '] ++ b) text value) : text = a ∧ value = b := by
  have heq : (a ++ [' ']) ++ '=' :: ' ' :: b = (text ++ [' ']) ++ '=' :: ' ' :: value := by
    simpa using h.eq
  obtain ⟨htext, -, hvalue⟩ :=
    (List.append_cons_inj_of_notMem (by simp [ha]) (by simp [hb])).1 heq
  exact ⟨(List.append_cancel_right htext).symm, (List.cons.inj hvalue).2.symm⟩

/-! ## The characters of a line -/

section

variable {c : Char}

theorem not_mem_shown {x : Binary64} (hx : x.isFinite = true) (hdigit : c.isDigit = false)
    (hminus : c ≠ '-') (hpoint : c ≠ '.') : c ∉ x.shown.toList := by
  obtain ⟨l, hl, htext, -⟩ := x.exists_literal_shown hx
  intro hc
  rw [htext] at hc
  rcases hl.mem_text hc with h | h | h
  · rw [h] at hdigit
    cases hdigit
  · exact hminus h
  · exact hpoint h

theorem not_mem_operationText {x y : Binary64} {op : Operator} (hx : x.isFinite = true)
    (hy : y.isFinite = true) (hdigit : c.isDigit = false) (hpoint : c ≠ '.') (hspace : c ≠ ' ')
    (hop : Operator.ofSymbol? c = none) : c ∉ (operationText x op y).toList := by
  have hsymbol : c ≠ op.symbol := by
    rintro rfl
    rw [Operator.ofSymbol?_symbol] at hop
    cases hop
  have hminus : c ≠ '-' := by
    rintro rfl
    cases hop
  rw [toList_operationText]
  simp [not_mem_shown hx hdigit hminus hpoint, not_mem_shown hy hdigit hminus hpoint, hspace,
    hsymbol]

end

namespace Reduction

theorem toList_text (step : Reduction) :
    step.text.toList = (operationText step.left step.op step.right).toList ++ [' ', '=', ' '] ++
      step.value.shown.toList := by
  simp [text]

theorem isEquation_text (step : Reduction) :
    IsEquation step.text.toList (operationText step.left step.op step.right).toList
      step.value.shown.toList where
  eq := step.toList_text
  form := ⟨_, step.op, _, by rw [toList_operationText, List.append_assoc]; rfl⟩

namespace IsSound

variable {step : Reduction} (h : step.IsSound)
include h

theorem isLine_text : Text.IsLine step.text.toList := by
  have hline {c : Char} (hdigit : c.isDigit = false) (hpoint : c ≠ '.') (hspace : c ≠ ' ')
      (hop : Operator.ofSymbol? c = none) (hequals : c ≠ '=') (hminus : c ≠ '-') :
      c ∉ step.text.toList := by
    rw [toList_text]
    simp [not_mem_operationText h.finite.left h.finite.right hdigit hpoint hspace hop, hspace,
      hequals, not_mem_shown h.finite.value hdigit hminus hpoint]
  refine ⟨by simp [toList_text], ?_, ?_⟩
  · exact hline (by decide) (by decide) (by decide) rfl (by decide) (by decide)
  · exact hline (by decide) (by decide) (by decide) rfl (by decide) (by decide)

/-- However the line of a sound operation is taken for an equation, the operation is confirmed. -/
theorem isConfirmedBy_of_isEquation {text value : Text}
    (heq : IsEquation step.text.toList text value) : step.IsConfirmedBy text value := by
  rw [toList_text] at heq
  obtain ⟨rfl, rfl⟩ := heq.unique
    (not_mem_operationText h.finite.left h.finite.right (by decide) (by decide) (by decide) rfl)
    (not_mem_shown h.finite.value (by decide) (by decide) (by decide))
  exact h.isConfirmedBy

end IsSound

end Reduction

end Stepwise
