import Stepwise.Proofs.Equations

set_option autoImplicit false

/-! # Shown arithmetic, checked

The traces of operations and expressions show the operations that were carried out, each on a line
of its own, and no other equation: whatever line of such a trace has the form `a op b = v`, reading
it back confirms an operation that was carried out (`Trace.Confirms`). The text that names the
operands of an operation has equals signs as well, but no operator between spaces.
-/

namespace Stepwise

/-! ## Traces -/

/-- The lines of the detail of a step. -/
def Step.detailLines (step : Step) : List Text :=
  (step.detail.map fun detail => Text.lines detail.toList).getD []

/-- The lines of all details of a trace. -/
def Trace.detailLines (t : Trace) : List Text := t.steps.flatMap Step.detailLines

/-- The trace shows the operations. Their lines are the last ones of its details, in order; each of
them is an equation that confirms its operation; and every line that is an equation confirms one of
the operations. -/
structure Trace.Confirms (t : Trace) (operations : List Reduction) : Prop where
  shown : (operations.map fun step => step.text.toList) <:+ t.detailLines
  equations : ∀ step ∈ operations, ∃ text value, IsEquation step.text.toList text value ∧
    step.IsConfirmedBy text value
  confirmed : ∀ line ∈ t.detailLines, ∀ text value, IsEquation line text value →
    ∃ step ∈ operations, step.IsConfirmedBy text value

/-- The step shows no equation. -/
def Step.ShowsNoEquation (step : Step) : Prop :=
  ∀ line ∈ step.detailLines, ∀ text value, ¬ IsEquation line text value

theorem Step.showsNoEquation_of_notMem {step : Step}
    (h : ∀ detail ∈ step.detail, '=' ∉ detail.toList) : step.ShowsNoEquation := by
  intro line hline
  unfold detailLines at hline
  cases hdetail : step.detail with
  | none =>
      rw [hdetail] at hline
      cases hline
  | some detail =>
      rw [hdetail] at hline
      exact not_isEquation_of_notMem fun hmem =>
        h detail hdetail (Text.subset_of_mem_lines hline hmem)

section

variable {title : String} {leading : List Step} {last : Step} {operations : List Reduction}
  (hleading : ∀ step ∈ leading, step.ShowsNoEquation)
include hleading

/-- A trace confirms the operations that its last step shows behind lines that are no equations. -/
theorem Trace.confirms_of_last {plain : List Text}
    (hplain : ∀ line ∈ plain, ∀ text value, ¬ IsEquation line text value)
    (hlast : last.detailLines = plain ++ operations.map fun step => step.text.toList)
    (hsound : ∀ step ∈ operations, step.IsSound) :
    Trace.Confirms ⟨title, leading ++ [last]⟩ operations := by
  have hlines : Trace.detailLines ⟨title, leading ++ [last]⟩ =
      leading.flatMap Step.detailLines ++ plain ++ operations.map fun step => step.text.toList := by
    rw [detailLines, List.flatMap_append, List.flatMap_singleton, hlast, List.append_assoc]
  refine ⟨⟨_, hlines.symm⟩, fun step hstep => ?_, fun line hline text value heq => ?_⟩
  · exact ⟨_, _, step.isEquation_text, (hsound step hstep).isConfirmedBy⟩
  rw [hlines, List.mem_append, List.mem_append] at hline
  rcases hline with (hline | hline) | hline
  · obtain ⟨step, hstep, hline⟩ := List.mem_flatMap.1 hline
    exact absurd heq (hleading step hstep line hline text value)
  · exact absurd heq (hplain line hline text value)
  · obtain ⟨step, hstep, rfl⟩ := List.mem_map.1 hline
    exact ⟨step, hstep, (hsound step hstep).isConfirmedBy_of_isEquation heq⟩

/-- A trace without equations confirms nothing. -/
theorem Trace.confirms_nil (hlast : last.ShowsNoEquation) :
    Trace.Confirms ⟨title, leading ++ [last]⟩ [] :=
  confirms_of_last hleading hlast (List.append_nil _).symm (List.forall_mem_nil _)

end

/-! ## Operations -/

/-- The operation, if it has a value. -/
def BinaryOperation.carriedOut (o : BinaryOperation) : List Reduction :=
  match reduce o.left o.op o.right with
  | .ok step => [step]
  | .error _ => []

/-- The trace shows the operation in its title, where it can be read back, and if the operation has
a value it shows how it was carried out. -/
structure Trace.ConfirmsOperation (t : Trace) (o : BinaryOperation) : Prop where
  title : ∃ text p, t.title = "Detailed steps for " ++ text ∧
    parseOperation text.toList = .ok p ∧ p.Agrees o ∧
    ∀ step ∈ o.carriedOut, step.IsConfirmedBy text.toList step.value.shown.toList
  lines : t.Confirms o.carriedOut

/-- The text that names the operands and the operator. -/
def operandsText (x : Binary64) (op : Operator) (y : Binary64) : String :=
  "a = " ++ x.shown ++ ", operator = '" ++ op.text ++ "', b = " ++ y.shown

theorem toList_operandsText (x y : Binary64) (op : Operator) :
    (operandsText x op y).toList =
      ['a'] ++ ' ' :: (['='] ++ ' ' :: ((x.shown.toList ++ [',']) ++ ' ' ::
        ("operator".toList ++ ' ' :: (['='] ++ ' ' :: (['\'', op.symbol, '\'', ','] ++ ' ' ::
          (['b'] ++ ' ' :: (['='] ++ ' ' :: y.shown.toList))))))) := by
  simp [operandsText, Operator.text]

section

variable {x y : Binary64} (hx : x.isFinite = true) (hy : y.isFinite = true) (op : Operator)
include hx

theorem shown_ne_symbol : x.shown.toList ≠ [op.symbol] := by
  obtain ⟨l, hl, htext, -⟩ := x.exists_literal_shown hx
  obtain ⟨init, d, hlast, hdigit⟩ := hl.exists_last
  intro h
  rw [htext, hlast] at h
  have hsymbol : d = op.symbol := by simpa using congrArg List.getLast? h
  rw [hsymbol, isDigit_symbol] at hdigit
  cases hdigit

include hy

theorem isLine_operandsText : Text.IsLine (operandsText x op y).toList := by
  have hline {c : Char} (hdigit : c.isDigit = false) (hminus : c ≠ '-') (hpoint : c ≠ '.')
      (hspace : c ≠ ' ') (hword : c ∉ ['a', '=', ',', 'o', 'p', 'e', 'r', 't', '\'', 'b'])
      (hop : c ≠ op.symbol) : c ∉ (operandsText x op y).toList := by
    rw [toList_operandsText]
    simp_all [not_mem_shown hx hdigit hminus hpoint, not_mem_shown hy hdigit hminus hpoint]
  refine ⟨by simp [toList_operandsText], ?_, ?_⟩
  · exact hline (by decide) (by decide) (by decide) (by decide) (by decide) (by cases op <;> decide)
  · exact hline (by decide) (by decide) (by decide) (by decide) (by decide) (by cases op <;> decide)

/-- The pieces of the text between the spaces. -/
theorem splitOn_operandsText :
    Text.splitOn (· = ' ') (operandsText x op y).toList =
      [['a'], ['='], x.shown.toList ++ [','], "operator".toList, ['='],
        ['\'', op.symbol, '\'', ','], ['b'], ['='], y.shown.toList] := by
  have hspace {z : Binary64} (hz : z.isFinite = true) : ' ' ∉ z.shown.toList :=
    not_mem_shown hz (by decide) (by decide) (by decide)
  have hleft : Text.splitOn (· = ' ') (x.shown.toList ++ [',']) = [x.shown.toList ++ [',']] :=
    Text.splitOn_eq_singleton (by simp [hspace hx])
  have hright : Text.splitOn (· = ' ') y.shown.toList = [y.shown.toList] :=
    Text.splitOn_eq_singleton (hspace hy)
  have hop : Text.splitOn (· = ' ') ['\'', op.symbol, '\'', ','] =
      [['\'', op.symbol, '\'', ',']] := by
    cases op <;> rfl
  have hcut (a b : Text) : Text.splitOn (· = ' ') (a ++ ' ' :: b) =
      Text.splitOn (· = ' ') a ++ Text.splitOn (· = ' ') b :=
    Text.splitOn_append_cons (by decide) a b
  rw [toList_operandsText]
  simp only [hcut, hleft, hop, hright]
  rfl

/-- No operator stands between spaces where the operands are named. -/
theorem showsNoEquation_operands (title : String) :
    Step.ShowsNoEquation { title, detail := some (operandsText x op y) } := by
  intro line hline text value heq
  have hlines : Text.lines (operandsText x op y).toList = [(operandsText x op y).toList] :=
    Text.lines_eq_singleton (isLine_operandsText hx hy op)
  rw [Step.detailLines, Option.map_some, Option.getD_some, hlines, List.mem_singleton] at hline
  rw [hline] at heq
  obtain ⟨other, hmem⟩ := heq.symbol_mem
  have hcomma : x.shown.toList ++ [','] ≠ [other.symbol] := by
    intro h
    have hsymbol : ',' = other.symbol := by simpa using congrArg List.getLast? h
    cases other <;> exact absurd hsymbol (by decide)
  have hlast := shown_ne_symbol hy other
  rw [splitOn_operandsText hx hy op] at hmem
  simp only [List.mem_cons, List.not_mem_nil, or_false, hcomma.symm, hlast.symm, false_or] at hmem
  cases other <;> revert hmem <;> simp [Operator.symbol]

end

theorem showsNoEquation_divisionByZeroStep : divisionByZeroStep.ShowsNoEquation :=
  Step.showsNoEquation_of_notMem (by simp [divisionByZeroStep])

theorem showsNoEquation_overflowStep {what : String} (h : '=' ∉ what.toList) :
    (overflowStep what).ShowsNoEquation := by
  refine Step.showsNoEquation_of_notMem ?_
  rintro _ ⟨⟩
  rw [String.toList_append, List.mem_append, not_or]
  exact ⟨h, by simp⟩

theorem showsNoEquation_rule (op : Operator) (title : String) :
    Step.ShowsNoEquation { title, detail := some op.rule } := by
  refine Step.showsNoEquation_of_notMem ?_
  rintro _ ⟨⟩
  cases op <;> simp [Operator.rule]

theorem isSound_of_mem_carriedOut {o : BinaryOperation} (hleft : o.left.isFinite = true)
    (hright : o.right.isFinite = true) : ∀ step ∈ o.carriedOut, step.IsSound := by
  intro step hstep
  unfold BinaryOperation.carriedOut at hstep
  split at hstep
  · next result hreduce =>
      rw [List.mem_singleton.1 hstep]
      exact isSound_of_reduce hleft hright hreduce
  · cases hstep

theorem operands_of_mem_carriedOut {o : BinaryOperation} {step : Reduction}
    (h : step ∈ o.carriedOut) : step.left = o.left ∧ step.op = o.op ∧ step.right = o.right := by
  unfold BinaryOperation.carriedOut at h
  split at h
  · next result hreduce =>
      rw [List.mem_singleton.1 h, reduce_eq_ok hreduce]
      exact ⟨rfl, rfl, rfl⟩
  · cases h

theorem explainOperation_confirms {o : BinaryOperation} (hleft : o.left.isFinite = true)
    (hright : o.right.isFinite = true) : (explainOperation o).ConfirmsOperation o := by
  have hsound := isSound_of_mem_carriedOut hleft hright
  constructor
  · obtain ⟨p, hparse, hagrees⟩ := exists_parseOperation_operationText hleft hright o.op
    refine ⟨operationText o.left o.op o.right, p, rfl, hparse, hagrees, fun step hstep => ?_⟩
    have hconfirmed := (hsound step hstep).isConfirmedBy
    obtain ⟨hstepLeft, hstepOp, hstepRight⟩ := operands_of_mem_carriedOut hstep
    rwa [hstepLeft, hstepOp, hstepRight] at hconfirmed
  · have hleading : ∀ step ∈ [
        ⟨"Identify operands and operator", some (operandsText o.left o.op o.right), none⟩,
        ⟨"Recall the rule for " ++ o.op.name, some o.op.rule, none⟩],
        Step.ShowsNoEquation step := by
      rw [List.forall_mem_cons, List.forall_mem_singleton]
      exact ⟨showsNoEquation_operands hleft hright o.op _, showsNoEquation_rule o.op _⟩
    show Trace.Confirms ⟨_, [_, _] ++ [computeStep o]⟩ _
    unfold BinaryOperation.carriedOut at hsound ⊢
    rw [computeStep_eq]
    cases hreduce : reduce o.left o.op o.right with
    | ok step =>
        rw [hreduce] at hsound
        have hline := Text.lines_eq_singleton (hsound step List.mem_cons_self).isLine_text
        exact Trace.confirms_of_last hleading (List.forall_mem_nil _) hline hsound
    | error cause =>
        cases cause with
        | divisionByZero dividend =>
            exact Trace.confirms_nil hleading showsNoEquation_divisionByZeroStep
        | overflow =>
            exact Trace.confirms_nil hleading (showsNoEquation_overflowStep
              (not_mem_operationText hleft hright (by decide) (by decide) (by decide) rfl))

/-! ## Expressions -/

/-- The operations that the expression is evaluated by; none if it has no value. -/
def Expression.carriedOut (tree : Expression) : List Reduction :=
  match tree.evaluate with
  | .ok evaluation => evaluation.reductions
  | .error _ => []

theorem showsNoEquation_precedence (title : String) :
    Step.ShowsNoEquation { title, detail := some precedenceRule } := by
  refine Step.showsNoEquation_of_notMem ?_
  rintro _ ⟨⟩
  decide +kernel

/-- The line in front of the reductions. -/
def reductionsHeading : String := "Applying the rules step by step:"

theorem evaluationStep_detailLines {evaluation : Evaluation} (hne : evaluation.reductions ≠ [])
    (hsound : ∀ step ∈ evaluation.reductions, step.IsSound) :
    (evaluationStep evaluation).detailLines =
      [reductionsHeading.toList] ++ evaluation.reductions.map fun step => step.text.toList := by
  have hheading : Text.IsLine reductionsHeading.toList := by
    constructor <;> simp [reductionsHeading]
  have hpieces : ∀ piece ∈ evaluation.reductions.map Reduction.text, Text.IsLine piece.toList :=
    List.forall_mem_map.2 fun step hstep => (hsound step hstep).isLine_text
  have hlines := Text.lines_heading_joinWith hheading (List.map_eq_nil_iff.not.2 hne) hpieces
  have hend : "Applying the rules step by step:\n" = reductionsHeading ++ "\n" := by
    simp [reductionsHeading]
  rw [Step.detailLines, evaluationStep, if_neg hne, Option.map_some, Option.getD_some, hend,
    hlines, List.map_map]
  rfl

theorem showsNoEquation_evaluationStep {evaluation : Evaluation} (h : evaluation.reductions = []) :
    (evaluationStep evaluation).ShowsNoEquation := by
  refine Step.showsNoEquation_of_notMem ?_
  rw [evaluationStep, if_pos h]
  rintro _ ⟨⟩
  simp

theorem explainExpression_confirms (t : Text) {tree : Expression} (htree : tree.LiteralsFinite) :
    (explainExpression t tree).Confirms tree.carriedOut := by
  have hleading : ∀ step ∈ [⟨"Tokenize the expression", some precedenceRule, none⟩],
      Step.ShowsNoEquation step :=
    List.forall_mem_singleton.2 (showsNoEquation_precedence _)
  show Trace.Confirms ⟨_, [_] ++ [outcomeStep tree.evaluate]⟩ _
  unfold Expression.carriedOut
  cases hevaluate : tree.evaluate with
  | ok evaluation =>
      have hsound := isSound_of_evaluate htree hevaluate
      by_cases hreductions : evaluation.reductions = []
      · show Trace.Confirms _ evaluation.reductions
        rw [hreductions]
        exact Trace.confirms_nil hleading (showsNoEquation_evaluationStep hreductions)
      · have hheading : '=' ∉ reductionsHeading.toList := by simp [reductionsHeading]
        exact Trace.confirms_of_last hleading
          (List.forall_mem_singleton.2 (not_isEquation_of_notMem hheading))
          (evaluationStep_detailLines hreductions hsound) hsound
  | error cause =>
      cases cause with
      | divisionByZero dividend =>
          exact Trace.confirms_nil hleading showsNoEquation_divisionByZeroStep
      | overflow =>
          exact Trace.confirms_nil hleading (showsNoEquation_overflowStep (by simp))

/-! ## Queries -/

/-- Within any limits, whatever a query is answered with on the way of an operation or of an
expression can be checked: each of its equations, read back, gives the value it shows for the
operation that was carried out. -/
theorem shown_arithmetic_confirmed (e : Explainer) (query : String) :
    ((e.run query).route = .operation →
      ∃ o, parseOperation (canonical query.toList) = .ok o ∧
        (e.run query).trace.ConfirmsOperation o) ∧
    ((e.run query).route = .expression →
      ∃ tree, parseExpression (canonical query.toList) = .ok tree ∧
        (e.run query).trace.Confirms tree.carriedOut) := by
  have h := answers_run e query
  generalize e.run query = outcome at h
  constructor
  · intro hroute
    cases h with
    | operation h =>
        obtain ⟨left, right, -, hleft, hlfinite, hright, hrfinite⟩ := parseOperation_sound h
        exact ⟨_, h, explainOperation_confirms (hleft ▸ hlfinite) (hright ▸ hrfinite)⟩
    | rejected reason => cases hroute
    | root => cases hroute
    | expression => cases hroute
    | general => cases hroute
  · intro hroute
    cases h with
    | expression h =>
        exact ⟨_, h, explainExpression_confirms _ (literalsFinite_of_parseExpression h)⟩
    | rejected reason => cases hroute
    | root => cases hroute
    | operation => cases hroute
    | general => cases hroute

/-- A product with a negative zero, and a difference from a product that is one. -/
theorem shown_arithmetic_confirmed_negative_zero :
    (({} : Explainer).run "5 * -0").route = .operation ∧
    (({} : Explainer).run "2 - (0 * -5)").route = .expression ∧
    (∃ o, parseOperation (canonical "5 * -0".toList) = .ok o ∧
      (({} : Explainer).run "5 * -0").trace.ConfirmsOperation o) ∧
    ∃ tree, parseExpression (canonical "2 - (0 * -5)".toList) = .ok tree ∧
      (({} : Explainer).run "2 - (0 * -5)").trace.Confirms tree.carriedOut := by
  have hoperation : (({} : Explainer).run "5 * -0").route = .operation := by decide +kernel
  have hexpression : (({} : Explainer).run "2 - (0 * -5)").route = .expression := by
    decide +kernel
  exact ⟨hoperation, hexpression, (shown_arithmetic_confirmed {} "5 * -0").1 hoperation,
    (shown_arithmetic_confirmed {} "2 - (0 * -5)").2 hexpression⟩

end Stepwise
