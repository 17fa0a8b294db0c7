import Stepwise.Proofs.ShownArithmetic
import Stepwise.Terminal

set_option autoImplicit false

/-! # Values in the terminal

The terminal shows the value of an operation or of an expression on its last two lines: indented
below the last step, and on a line of its own. No other line looks like these, with the details or
without (`rendered_value`). Here a value is written as a plain numeral, where the explanation shows
the number without the sign of a zero. The two numerals differ for negative zero and for no other
number (`plain_eq_shown_iff`).
-/

namespace Stepwise

/-! ## The two numerals -/

namespace Binary64

theorem exists_eq_zero {x : Binary64} (h : x.isZero = true) : ∃ negative, x = zero negative := by
  obtain ⟨negative, ⟨units, short, bounded⟩, rfl⟩ := exists_finite (isFinite_of_isZero h)
  obtain rfl : units = 0 := of_decide_eq_true h
  refine ⟨negative, ?_⟩
  rw [zero, ofRatio, dif_pos (by rw [roundUnits_zero]; exact unitsLimit_pos)]
  congr

theorem isZero_zero (negative : Bool) : (zero negative).isZero = true := by
  cases negative <;> decide +kernel

theorem plain_zero (negative : Bool) : (zero negative).plain = if negative then "-0" else "0" := by
  cases negative <;> decide +kernel

theorem shown_zero (negative : Bool) : (zero negative).shown = "0" :=
  if_pos (isZero_zero negative)

/-- The two numerals are the same, but for negative zero. -/
theorem plain_eq_shown_iff (x : Binary64) : x.plain = x.shown ↔ x ≠ zero true := by
  by_cases hzero : x.isZero = true
  · obtain ⟨negative, rfl⟩ := exists_eq_zero hzero
    rw [plain_zero, shown_zero]
    cases negative with
    | true => exact iff_of_false (by decide) fun hne => hne rfl
    | false =>
        refine iff_of_true rfl fun heq => ?_
        have hplain := congrArg plain heq
        rw [plain_zero, plain_zero] at hplain
        exact absurd hplain (by decide)
  · refine iff_of_true (if_neg hzero).symm fun heq => hzero ?_
    rw [heq]
    exact isZero_zero true

end Binary64

theorem isLine_append_plain (label : String) (hlabel : Text.IsLine label.toList) {x : Binary64}
    (hx : x.isFinite = true) : Text.IsLine (label ++ x.plain).toList := by
  obtain ⟨l, hl, htext, -⟩ := x.exists_literal_plain hx
  have hchar {c : Char} (hdigit : c.isDigit = false) (hminus : c ≠ '-') (hpoint : c ≠ '.') :
      c ∉ x.plain.toList := by
    intro hc
    rw [htext] at hc
    rcases hl.mem_text hc with h | h | h
    · rw [h] at hdigit
      cases hdigit
    · exact hminus h
    · exact hpoint h
  rw [String.toList_append]
  constructor
  · exact List.append_ne_nil_of_left_ne_nil hlabel.nonempty _
  · rw [List.mem_append, not_or]
    exact ⟨hlabel.noFeed, hchar (by decide) (by decide) (by decide)⟩
  · rw [List.mem_append, not_or]
    exact ⟨hlabel.noReturn, hchar (by decide) (by decide) (by decide)⟩

/-! ## Lines of values -/

/-- The line shows the value of a step or the value of the trace. -/
def IsValueLine (line : Text) : Prop :=
  "   = ".toList <+: line ∨ "Result: ".toList <+: line

theorem not_isValueLine_of_notMem {line : Text} (hequals : '=' ∉ line) (hcolon : ':' ∉ line) :
    ¬ IsValueLine line := by
  rintro (h | h)
  · exact hequals (h.subset (by decide))
  · exact hcolon (h.subset (by decide))

/-- An indented line is no line of a value, unless an equals sign stands first. -/
theorem not_isValueLine_indented {line : Text} (h : line.head? ≠ some '=') :
    ¬ IsValueLine ("   ".toList ++ line) := by
  rintro (⟨rest, heq⟩ | ⟨rest, heq⟩)
  · have hline : '=' :: ' ' :: rest = line := by simpa using heq
    exact h (by rw [← hline]; rfl)
  · simp at heq

/-- The block is complete lines, whatever follows it, and none of them shows a value. -/
def IsPlainBlock (block : Text) : Prop :=
  ∃ plain : List Text, (∀ rest, Text.lines (block ++ rest) = plain ++ Text.lines rest) ∧
    ∀ line ∈ plain, ¬ IsValueLine line

namespace IsPlainBlock

theorem nil : IsPlainBlock [] := ⟨[], fun _ => rfl, List.forall_mem_nil _⟩

theorem append {a b : Text} (ha : IsPlainBlock a) (hb : IsPlainBlock b) :
    IsPlainBlock (a ++ b) := by
  obtain ⟨plain, hlines, hplain⟩ := ha
  obtain ⟨others, hothers, hplain'⟩ := hb
  refine ⟨plain ++ others, fun rest => ?_, List.forall_mem_append.2 ⟨hplain, hplain'⟩⟩
  rw [List.append_assoc, hlines, hothers, List.append_assoc]

end IsPlainBlock

theorem lines_line_append (content : String) (rest : Text) :
    Text.lines ((line content).toList ++ rest) =
      Text.closedLines content.toList ++ Text.lines rest := by
  rw [line, String.toList_append, List.append_assoc]
  exact Text.lines_append_feed content.toList rest

theorem lines_line {content : String} (h : Text.IsLine content.toList) :
    Text.lines (line content).toList = [content.toList] := by
  rw [← List.append_nil (line content).toList, lines_line_append, h.closedLines_eq]
  rfl

theorem isPlainBlock_line {content : String}
    (h : ∀ l ∈ Text.closedLines content.toList, ¬ IsValueLine l) :
    IsPlainBlock (line content).toList :=
  ⟨_, lines_line_append content, h⟩

theorem isPlainBlock_line_of_notMem {content : String} (hequals : '=' ∉ content.toList)
    (hcolon : ':' ∉ content.toList) : IsPlainBlock (line content).toList :=
  isPlainBlock_line fun _ hl => not_isValueLine_of_notMem
    (fun hmem => hequals (Text.subset_of_mem_closedLines hl hmem))
    fun hmem => hcolon (Text.subset_of_mem_closedLines hl hmem)

theorem isPlainBlock_indentLines {ls : List Text} (hfeed : ∀ l ∈ ls, '\n' ∉ l)
    (hhead : ∀ l ∈ ls, l.head? ≠ some '=') : IsPlainBlock (indentLines ls).toList := by
  induction ls with
  | nil => exact .nil
  | cons l ls ih =>
      rw [List.forall_mem_cons] at hfeed hhead
      have hcontent : ("   " ++ String.ofList l).toList = "   ".toList ++ l := by simp
      have hline : IsPlainBlock (line ("   " ++ String.ofList l)).toList := by
        refine isPlainBlock_line ?_
        rw [hcontent, Text.closedLines_eq_singleton (by simp [hfeed.1]), List.forall_mem_singleton]
        -- what starts a line without its return also starts the line with it
        have hkept := Text.dropReturn_prefix ("   ".toList ++ l)
        exact fun hvalue => not_isValueLine_indented hhead.1
          (hvalue.imp (fun h => h.trans hkept) fun h => h.trans hkept)
      rw [indentLines, String.toList_append]
      exact hline.append (ih hfeed.2 hhead.2)

/-! ## Steps -/

/-- The title has no sign of a line that shows a value. -/
def IsPlainTitle (title : String) : Prop := '=' ∉ title.toList ∧ ':' ∉ title.toList

/-- Neither the title of the step nor its detail can be taken for the line of a value. -/
structure Step.IsPlain (step : Step) : Prop where
  title : IsPlainTitle step.title
  detail : ∀ l ∈ step.detailLines, l.head? ≠ some '='

section

variable (showDetails : Bool)

theorem Step.IsPlain.isPlainBlock_render {step : Step} (h : step.IsPlain)
    (hvalueless : step.result = none) (number : Nat) :
    IsPlainBlock (step.render showDetails number).toList := by
  have htitle : IsPlainBlock (line (toString number ++ ". " ++ step.title)).toList := by
    apply isPlainBlock_line_of_notMem
    · simpa [h.title.1] using not_mem_toDigits (by decide) number
    · simpa [h.title.2] using not_mem_toDigits (by decide) number
  have hdetail : IsPlainBlock
      (if showDetails then (step.detail.map detailText).getD "" else "").toList := by
    have hplain := h.detail
    unfold Step.detailLines at hplain
    cases showDetails with
    | false => exact .nil
    | true =>
        cases hdetail : step.detail with
        | none => exact .nil
        | some detail =>
            rw [hdetail] at hplain
            exact isPlainBlock_indentLines (fun l hl => Text.noFeed_of_mem_lines hl) hplain
  rw [render, hvalueless, String.toList_append, String.toList_append]
  exact (htitle.append hdetail).append .nil

/-- The value of a step stands behind its other lines. -/
theorem Step.render_eq_append {step : Step} {v : Binary64} (hvalue : step.result = some v)
    (number : Nat) :
    step.render showDetails number =
      ({ step with result := none } : Step).render showDetails number ++
        line ("   = " ++ v.plain) := by
  simp [render, hvalue]

theorem exists_renderSteps_concat {leading : List Step} {last : Step} {v : Binary64}
    (hleading : ∀ step ∈ leading, step.IsPlain ∧ step.result = none) (hlast : last.IsPlain)
    (hvalue : last.result = some v) (number : Nat) :
    ∃ block, IsPlainBlock block ∧ (renderSteps showDetails number (leading ++ [last])).toList =
      block ++ (line ("   = " ++ v.plain)).toList := by
  induction leading generalizing number with
  | nil =>
      have hblock : ({ last with result := none } : Step).IsPlain := ⟨hlast.title, hlast.detail⟩
      refine ⟨_, hblock.isPlainBlock_render showDetails rfl number, ?_⟩
      rw [List.nil_append, renderSteps, renderSteps, String.append_empty,
        Step.render_eq_append showDetails hvalue, String.toList_append]
  | cons step leading ih =>
      rw [List.forall_mem_cons] at hleading
      obtain ⟨block, hblock, heq⟩ := ih hleading.2 (number + 1)
      refine ⟨_, (hleading.1.1.isPlainBlock_render showDetails hleading.1.2 number).append hblock, ?_⟩
      rw [List.cons_append, renderSteps, String.toList_append, heq, List.append_assoc]

/-- The lines of the trace end with two lines that show the numeral as a value, the one of the last
step and the one of the trace, and no other line shows a value. -/
def Trace.RendersNumeral (t : Trace) (showDetails : Bool) (numeral : String) : Prop :=
  ∃ plain : List Text, Text.lines (t.render showDetails).toList =
      plain ++ [("   = " ++ numeral).toList, ("Result: " ++ numeral).toList] ∧
    ∀ l ∈ plain, ¬ IsValueLine l

/-- A value is shown as one numeral only. -/
theorem Trace.RendersNumeral.unique {t : Trace} {showDetails : Bool} {numeral other : String}
    (h : t.RendersNumeral showDetails numeral) (hother : t.RendersNumeral showDetails other) :
    numeral = other := by
  obtain ⟨plain, hlines, -⟩ := h
  obtain ⟨others, hothers, -⟩ := hother
  have hlast := congrArg List.getLast? (hlines.symm.trans hothers)
  rw [List.getLast?_append_cons, List.getLast?_append_cons] at hlast
  have hclosing : ("Result: " ++ numeral).toList = ("Result: " ++ other).toList :=
    Option.some.inj hlast
  exact String.append_right_inj _ |>.1 (String.toList_inj.1 hclosing)

theorem Trace.rendersNumeral_of_last {t : Trace} {leading : List Step} {last : Step}
    {v : Binary64} (hsteps : t.steps = leading ++ [last]) (htitle : IsPlainTitle t.title)
    (hleading : ∀ step ∈ leading, step.IsPlain ∧ step.result = none) (hlast : last.IsPlain)
    (hvalue : last.result = some v) (hv : v.isFinite = true) :
    t.RendersNumeral showDetails v.plain := by
  obtain ⟨title, steps⟩ := t
  obtain rfl : steps = leading ++ [last] := hsteps
  obtain ⟨block, hblock, hsteps⟩ :=
    exists_renderSteps_concat showDetails hleading hlast hvalue 1
  obtain ⟨plain, hlines, hplain⟩ :=
    (isPlainBlock_line_of_notMem htitle.1 htitle.2).append hblock
  have hfinal : Trace.finalResult ⟨title, leading ++ [last]⟩ = some v :=
    (finalResult_concat title leading last fun step hstep => (hleading step hstep).2).trans hvalue
  have hstepLine := isLine_append_plain "   = " ⟨by simp, by simp, by simp⟩ hv
  have hresultLine := isLine_append_plain "Result: " ⟨by simp, by simp, by simp⟩ hv
  refine ⟨plain, ?_, hplain⟩
  rw [Trace.render, hfinal, String.toList_append, String.toList_append, hsteps,
    ← List.append_assoc, List.append_assoc, hlines, lines_line_append, hstepLine.closedLines_eq,
    Option.map_some, Option.getD_some, lines_line hresultLine]
  rfl

end

/-! ## Operations and expressions -/

theorem Step.isPlain_of_notMem {step : Step}
    (htitle : IsPlainTitle step.title)
    (hdetail : ∀ detail ∈ step.detail, '=' ∉ detail.toList) : step.IsPlain := by
  refine ⟨htitle, fun l hl hhead => ?_⟩
  unfold detailLines at hl
  cases hsome : step.detail with
  | none =>
      rw [hsome] at hl
      cases hl
  | some detail =>
      rw [hsome] at hl
      exact hdetail detail hsome (Text.subset_of_mem_lines hl (List.mem_of_head? hhead))

section

variable {x y : Binary64} (hx : x.isFinite = true) (hy : y.isFinite = true) (op : Operator)
include hx hy

theorem isPlain_operands :
    Step.IsPlain ⟨"Identify operands and operator", some (operandsText x op y), none⟩ := by
  have htitle : IsPlainTitle "Identify operands and operator" := by simp [IsPlainTitle]
  refine ⟨htitle, fun l hl => ?_⟩
  have hlines := Text.lines_eq_singleton (isLine_operandsText hx hy op)
  rw [Step.detailLines, Option.map_some, Option.getD_some, hlines, List.mem_singleton] at hl
  rw [hl, toList_operandsText]
  exact fun hhead => absurd (Option.some.inj hhead) (by decide)

theorem isPlainTitle_operation :
    IsPlainTitle ("Detailed steps for " ++ operationText x op y) := by
  rw [IsPlainTitle, String.toList_append, List.mem_append, List.mem_append, not_or, not_or]
  exact ⟨⟨by simp, not_mem_operationText hx hy (by decide) (by decide) (by decide) rfl⟩,
    by simp, not_mem_operationText hx hy (by decide) (by decide) (by decide) rfl⟩

end

theorem isPlain_rule (op : Operator) :
    Step.IsPlain ⟨"Recall the rule for " ++ op.name, some op.rule, none⟩ := by
  apply Step.isPlain_of_notMem
  · cases op <;> simp [IsPlainTitle, Operator.name]
  · rintro _ ⟨⟩
    cases op <;> simp [Operator.rule]

theorem Reduction.IsSound.head?_text {step : Reduction} (h : step.IsSound) :
    step.text.toList.head? ≠ some '=' := by
  have hne : (operationText step.left step.op step.right).toList ≠ [] := by
    simp [toList_operationText]
  rw [toList_text, List.append_assoc, List.head?_append_of_ne_nil _ hne]
  exact fun hhead => not_mem_operationText h.finite.left h.finite.right (by decide) (by decide)
    (by decide) rfl (List.mem_of_head? hhead)

theorem isPlain_compute {step : Reduction} (h : step.IsSound) (result : Option Binary64) :
    Step.IsPlain ⟨"Compute", some step.text, result⟩ := by
  have htitle : IsPlainTitle "Compute" := by simp [IsPlainTitle]
  refine ⟨htitle, fun l hl => ?_⟩
  have hlines := Text.lines_eq_singleton h.isLine_text
  rw [Step.detailLines, Option.map_some, Option.getD_some, hlines, List.mem_singleton] at hl
  rw [hl]
  exact h.head?_text

theorem isPlain_precedence : Step.IsPlain ⟨"Tokenize the expression", some precedenceRule, none⟩ := by
  apply Step.isPlain_of_notMem
  · simp [IsPlainTitle]
  · rintro _ ⟨⟩
    decide +kernel

theorem isPlain_evaluationStep {evaluation : Evaluation}
    (hsound : ∀ step ∈ evaluation.reductions, step.IsSound) :
    (evaluationStep evaluation).IsPlain := by
  have htitle : IsPlainTitle "Evaluate with precedence" := by simp [IsPlainTitle]
  by_cases hreductions : evaluation.reductions = []
  · refine Step.isPlain_of_notMem htitle ?_
    rw [evaluationStep, if_pos hreductions]
    rintro _ ⟨⟩
    simp
  · refine ⟨htitle, ?_⟩
    rw [evaluationStep_detailLines hreductions hsound, List.forall_mem_append,
      List.forall_mem_singleton, List.forall_mem_map]
    exact ⟨by simp [reductionsHeading], fun step hstep => (hsound step hstep).head?_text⟩

section

variable (showDetails : Bool) {v : Binary64}

theorem explainOperation_rendersNumeral {o : BinaryOperation} (hleft : o.left.isFinite = true)
    (hright : o.right.isFinite = true) (hvalue : (explainOperation o).finalResult = some v) :
    (explainOperation o).RendersNumeral showDetails v.plain := by
  rw [explainOperation_finalResult, computeStep_eq] at hvalue
  cases hreduce : reduce o.left o.op o.right with
  | error cause =>
      rw [hreduce] at hvalue
      cases cause <;> cases hvalue
  | ok step =>
      rw [hreduce] at hvalue
      cases hvalue
      have hsound := isSound_of_reduce hleft hright hreduce
      have hlast : computeStep o = ⟨"Compute", some step.text, some step.value⟩ := by
        rw [computeStep_eq, hreduce]
      have hsteps : (explainOperation o).steps = [_, _] ++ [computeStep o] := rfl
      rw [hlast] at hsteps
      have hleading : ∀ step ∈ [
          ⟨"Identify operands and operator", some (operandsText o.left o.op o.right), none⟩,
          ⟨"Recall the rule for " ++ o.op.name, some o.op.rule, none⟩],
          Step.IsPlain step ∧ step.result = none := by
        rw [List.forall_mem_cons, List.forall_mem_singleton]
        exact ⟨⟨isPlain_operands hleft hright o.op, rfl⟩, isPlain_rule o.op, rfl⟩
      exact Trace.rendersNumeral_of_last showDetails hsteps
        (isPlainTitle_operation hleft hright o.op) hleading (isPlain_compute hsound _) rfl
        hsound.finite.value

theorem explainExpression_rendersNumeral {t : Text} {tree : Expression}
    (hparse : parseExpression t = .ok tree)
    (hvalue : (explainExpression t tree).finalResult = some v) :
    (explainExpression t tree).RendersNumeral showDetails v.plain := by
  have htree := literalsFinite_of_parseExpression hparse
  have htitle {c : Char} (hc : isArithmeticChar c = false)
      (hfixed : c ∉ "Detailed steps for ".toList) :
      c ∉ ("Detailed steps for " ++ String.ofList t).toList := by
    rw [String.toList_append, List.mem_append, not_or]
    refine ⟨hfixed, fun hmem => ?_⟩
    rw [String.toList_ofList] at hmem
    rw [allArithmetic_of_parseExpression hparse c hmem] at hc
    cases hc
  rw [explainExpression_finalResult] at hvalue
  cases hevaluate : tree.evaluate with
  | error cause =>
      rw [hevaluate] at hvalue
      cases cause <;> cases hvalue
  | ok evaluation =>
      rw [hevaluate] at hvalue
      cases hvalue
      have hsteps : (explainExpression t tree).steps = [_] ++ [outcomeStep tree.evaluate] := rfl
      rw [hevaluate] at hsteps
      exact Trace.rendersNumeral_of_last showDetails hsteps
        ⟨htitle (by decide) (by simp), htitle (by decide) (by simp)⟩
        (List.forall_mem_singleton.2 ⟨isPlain_precedence, rfl⟩)
        (isPlain_evaluationStep (isSound_of_evaluate htree hevaluate)) rfl
        (isFinite_of_evaluate htree hevaluate).value

/-- The value of an operation or of an expression is written as a plain numeral. -/
theorem rendersNumeral_plain (e : Explainer) (query : String)
    (hroute : (e.run query).route = .operation ∨ (e.run query).route = .expression)
    (hvalue : (e.run query).trace.finalResult = some v) :
    (e.run query).trace.RendersNumeral showDetails v.plain := by
  have h := answers_run e query
  generalize e.run query = outcome at h hroute hvalue
  cases h with
  | operation h =>
      obtain ⟨left, right, -, hleft, hlfinite, hright, hrfinite⟩ := parseOperation_sound h
      exact explainOperation_rendersNumeral showDetails (hleft ▸ hlfinite) (hright ▸ hrfinite)
        hvalue
  | expression h => exact explainExpression_rendersNumeral showDetails h hvalue
  | rejected reason => rcases hroute with hroute | hroute <;> cases hroute
  | root => rcases hroute with hroute | hroute <;> cases hroute
  | general => rcases hroute with hroute | hroute <;> cases hroute

/-- The terminal shows the value of an operation or of an expression twice, with the details or
without, as the numeral that explanations show; only negative zero keeps its sign there. -/
theorem rendered_value (e : Explainer) (query : String)
    (hroute : (e.run query).route = .operation ∨ (e.run query).route = .expression)
    (hvalue : (e.run query).trace.finalResult = some v) :
    (v ≠ .zero true → (e.run query).trace.RendersNumeral showDetails v.shown) ∧
    (v = .zero true →
      (e.run query).trace.RendersNumeral showDetails "-0" ∧ v.shown = "0") := by
  have hplain := rendersNumeral_plain showDetails e query hroute hvalue
  constructor
  · intro hne
    rwa [(Binary64.plain_eq_shown_iff v).2 hne] at hplain
  · rintro rfl
    exact ⟨by rwa [Binary64.plain_zero] at hplain, Binary64.shown_zero true⟩

end

/-- A difference from a product that is negative zero. -/
theorem rendered_value_difference :
    (({} : Explainer).run "2 - (0 * -5)").route = .expression ∧
    (({} : Explainer).run "2 - (0 * -5)").trace.finalResult = some (.ofNat 2) ∧
    Binary64.ofNat 2 ≠ .zero true ∧ (Binary64.ofNat 2).shown = "2" ∧
    ∀ showDetails,
      (({} : Explainer).run "2 - (0 * -5)").trace.RendersNumeral showDetails
        (Binary64.ofNat 2).shown := by
  have hrun : (({} : Explainer).run "2 - (0 * -5)").route = .expression ∧
      (({} : Explainer).run "2 - (0 * -5)").trace.finalResult = some (.ofNat 2) := by
    decide +kernel
  have hne : Binary64.ofNat 2 ≠ .zero true := by decide +kernel
  exact ⟨hrun.1, hrun.2, hne, by decide +kernel, fun showDetails =>
    (rendered_value showDetails {} "2 - (0 * -5)" (.inr hrun.1) hrun.2).1 hne⟩

/-- The product of zero and a negative number is explained as `0 * -5 = 0`, but its value is written
`-0` below, with the details or without. -/
theorem negative_zero_rendered :
    (({} : Explainer).run "0 * -5").route = .operation ∧
    (({} : Explainer).run "0 * -5").trace.finalResult = some (.zero true) ∧
    (({} : Explainer).run "0 * -5").trace.steps.getLast?.bind Step.detail = some "0 * -5 = 0" ∧
    (Binary64.zero true).shown = "0" ∧
    ∀ showDetails,
      (({} : Explainer).run "0 * -5").trace.RendersNumeral showDetails "-0" ∧
      ¬ (({} : Explainer).run "0 * -5").trace.RendersNumeral showDetails "0" := by
  have hrun : (({} : Explainer).run "0 * -5").route = .operation ∧
      (({} : Explainer).run "0 * -5").trace.finalResult = some (.zero true) ∧
      (({} : Explainer).run "0 * -5").trace.steps.getLast?.bind Step.detail =
        some "0 * -5 = 0" := by
    decide +kernel
  refine ⟨hrun.1, hrun.2.1, hrun.2.2, Binary64.shown_zero true, fun showDetails => ?_⟩
  have hplain := rendersNumeral_plain showDetails {} "0 * -5" (.inl hrun.1) hrun.2.1
  rw [Binary64.plain_zero] at hplain
  exact ⟨hplain, fun hshown => absurd (hplain.unique hshown) (by decide)⟩

end Stepwise
