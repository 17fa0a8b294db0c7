import Stepwise.Document
import Stepwise.Proofs.CompleteTraces
import Stepwise.Proofs.Finiteness
import Stepwise.Proofs.TerminalValues

set_option autoImplicit false

/-! # Two reports of one trace

An outcome is reported to programs as a document and to readers as lines in the terminal. The
document is built step by step: what it has after some steps is what the trace of these steps has
(`Covers`), so its final result is at all times the one of the last step with a result. The lines
are built from the same trace, and the last one shows its value if there is one
(`lastLine?_eq_iff`). So the two reports tell the same value (`reports_agree`).
-/

namespace Stepwise

/-! ## The document -/

theorem Route.rejection?_eq_some_iff {route : Route} {reason : Rejection} :
    route.rejection? = some reason ↔ route = .rejected reason := by
  cases route <;> simp [rejection?]

namespace ExplainDocument

/-- The document has the steps of the trace, numbered from one, and the value of the trace. -/
structure Covers (d : ExplainDocument) (t : Trace) : Prop where
  steps : d.steps =
    t.steps.mapIdx fun i step => ⟨i + 1, step.title, step.detail, step.result⟩
  finalResult : d.finalResult = t.finalResult

/-- One step more in the document is one step more in the trace. -/
theorem Covers.addStep {d : ExplainDocument} {title : String} {steps : List Step}
    (h : d.Covers ⟨title, steps⟩) (step : Step) :
    (d.addStep step).Covers ⟨title, steps ++ [step]⟩ := by
  constructor
  · show d.steps ++ [_] = _
    rw [List.mapIdx_concat, h.steps, List.length_mapIdx]
  · show step.result.or d.finalResult = _
    rw [h.finalResult, Trace.finalResult, Trace.finalResult, List.reverse_append,
      List.reverse_singleton, List.singleton_append, List.findSome?_cons]
    cases step.result <;> rfl

theorem covers_foldl_addStep {d : ExplainDocument} {title : String} (h : d.Covers ⟨title, []⟩)
    (steps : List Step) : (steps.foldl addStep d).Covers ⟨title, steps⟩ := by
  induction steps using List.reverseRecOn with
  | nil => exact h
  | append_singleton steps step ih =>
      rw [List.foldl_append]
      exact ih.addStep step

/-- Steps change nothing else in the document. -/
theorem foldl_addStep_frame (d : ExplainDocument) (steps : List Step) :
    steps.foldl addStep d =
      { d with
        steps := (steps.foldl addStep d).steps
        finalResult := (steps.foldl addStep d).finalResult } := by
  induction steps generalizing d with
  | nil => rfl
  | cons step steps ih => exact ih (d.addStep step)

/-- The document reports the outcome of the query: its steps and its value, and if the query was
rejected, why. -/
structure Reports (d : ExplainDocument) (query : String) (o : Outcome) : Prop where
  input : d.input = query
  route : d.route = o.route.name
  title : d.title = o.trace.title
  covers : d.Covers o.trace
  ok_iff : d.ok = false ↔ d.error ≠ none
  error_iff : ∀ error, d.error = some error ↔
    ∃ reason, o.route = .rejected reason ∧ error = ⟨reason.kind, reason.code, reason.message⟩

/-- The document of an outcome reports the outcome. -/
theorem reports_ofOutcome (query : String) (o : Outcome) : (ofOutcome query o).Reports query o := by
  obtain ⟨⟨title, steps⟩, route⟩ := o
  let empty : ExplainDocument := { input := query, route := route.name, title }
  have hcovers : (steps.foldl addStep empty).Covers ⟨title, steps⟩ :=
    covers_foldl_addStep ⟨rfl, rfl⟩ steps
  have hframe := foldl_addStep_frame empty steps
  have hinput := congrArg input hframe
  have hroute := congrArg ExplainDocument.route hframe
  have htitle := congrArg ExplainDocument.title hframe
  unfold ofOutcome
  cases hreason : route.rejection? with
  | some reason =>
      have hrejected := Route.rejection?_eq_some_iff.1 hreason
      refine ⟨hinput, hroute, htitle, ⟨hcovers.steps, hcovers.finalResult⟩,
        iff_of_true rfl (Option.some_ne_none _), fun error => ?_⟩
      simp only [hrejected, Route.rejected.injEq]
      constructor
      · rintro ⟨⟩
        exact ⟨reason, rfl, rfl⟩
      · rintro ⟨_, rfl, rfl⟩
        rfl
  | none =>
      have hok : (steps.foldl addStep empty).ok = true := congrArg ExplainDocument.ok hframe
      have hnone : (steps.foldl addStep empty).error = none :=
        congrArg ExplainDocument.error hframe
      refine ⟨hinput, hroute, htitle, hcovers,
        iff_of_false (by simp [hok, empty]) (not_not_intro hnone),
        fun error => iff_of_false (by simp [hnone, empty]) ?_⟩
      rintro ⟨reason, hrejected, -⟩
      rw [Route.rejection?_eq_some_iff.2 hrejected] at hreason
      cases hreason

end ExplainDocument

/-! ## Closed lines -/

theorem isClosed_line (content : String) : Text.IsClosed (line content).toList := by
  rw [line, String.toList_append]
  exact Text.isClosed_feed content.toList

theorem isClosed_indentLines (ls : List Text) : Text.IsClosed (indentLines ls).toList := by
  induction ls with
  | nil => exact Text.isClosed_nil
  | cons l ls ih =>
      rw [indentLines, String.toList_append]
      exact (isClosed_line _).append ih

section

variable (showDetails : Bool)

theorem Step.isClosed_render (step : Step) (number : Nat) :
    Text.IsClosed (step.render showDetails number).toList := by
  have hdetail : Text.IsClosed
      (if showDetails then (step.detail.map detailText).getD "" else "").toList := by
    cases showDetails with
    | false => exact Text.isClosed_nil
    | true =>
        cases step.detail with
        | none => exact Text.isClosed_nil
        | some detail => exact isClosed_indentLines _
  have hvalue : Text.IsClosed
      ((step.result.map fun value => line ("   = " ++ value.plain)).getD "").toList := by
    cases step.result with
    | none => exact Text.isClosed_nil
    | some value => exact isClosed_line _
  rw [render, String.toList_append, String.toList_append]
  exact ((isClosed_line _).append hdetail).append hvalue

theorem isClosed_renderSteps (steps : List Step) (number : Nat) :
    Text.IsClosed (renderSteps showDetails number steps).toList := by
  induction steps generalizing number with
  | nil => exact Text.isClosed_nil
  | cons step steps ih =>
      rw [renderSteps, String.toList_append]
      exact (step.isClosed_render showDetails number).append (ih (number + 1))

theorem renderSteps_append (leading others : List Step) (number : Nat) :
    renderSteps showDetails number (leading ++ others) =
      renderSteps showDetails number leading ++
        renderSteps showDetails (number + leading.length) others := by
  induction leading generalizing number with
  | nil => simp [renderSteps]
  | cons step leading ih =>
      rw [List.cons_append, renderSteps, renderSteps, ih, String.append_assoc, List.length_cons,
        Nat.add_right_comm, Nat.add_assoc]

/-- The lines of a trace are the ones of its title, of its steps and of its value. -/
theorem Trace.lines_render (t : Trace) :
    Text.lines (t.render showDetails).toList =
      Text.lines (line t.title).toList ++
        (Text.lines (renderSteps showDetails 1 t.steps).toList ++
          Text.lines ((t.finalResult.map fun value =>
            line ("Result: " ++ value.plain)).getD "").toList) := by
  rw [render, String.toList_append, String.toList_append, List.append_assoc, isClosed_line,
    isClosed_renderSteps]

/-! ## The last line -/

/-- The last line of the trace. -/
def Trace.lastLine? (t : Trace) : Option Text :=
  (Text.lines (t.render showDetails).toList).getLast?

theorem Trace.lastLine?_of_value {t : Trace} {v : Binary64} (hvalue : t.finalResult = some v)
    (hfinite : v.isFinite = true) :
    t.lastLine? showDetails = some ("Result: " ++ v.plain).toList := by
  have hline := isLine_append_plain "Result: " ⟨by simp, by simp, by simp⟩ hfinite
  rw [lastLine?, lines_render, hvalue, Option.map_some, Option.getD_some, lines_line hline,
    ← List.append_assoc, List.getLast?_concat]

/-- The first characters of a line are also the first characters of what it was cut from. -/
theorem head?_ne_of_dropReturn {t : Text} {c : Char} (h : t.head? ≠ some c) :
    (dropReturn t).head? ≠ some c := by
  obtain ⟨rest, hrest⟩ := Text.dropReturn_prefix t
  rw [← hrest] at h
  cases hdropped : dropReturn t with
  | nil => simp
  | cons d ds => rwa [hdropped] at h

theorem head?_ne_of_mem_indentLines {ls : List Text} (hfeed : ∀ l ∈ ls, '\n' ∉ l) :
    ∀ l ∈ Text.lines (indentLines ls).toList, l.head? ≠ some 'R' := by
  induction ls with
  | nil => exact List.forall_mem_nil _
  | cons l ls ih =>
      rw [List.forall_mem_cons] at hfeed
      have hcontent : ("   " ++ String.ofList l).toList = "   ".toList ++ l := by simp
      rw [indentLines, String.toList_append, lines_line_append, hcontent,
        Text.closedLines_eq_singleton (by simp [hfeed.1]), List.forall_mem_append,
        List.forall_mem_singleton]
      exact ⟨head?_ne_of_dropReturn (by simp), ih hfeed.2⟩

theorem head?_toString_ne (n : Nat) (rest : Text) :
    ((toString n).toList ++ rest).head? ≠ some 'R' := by
  rw [toList_toString, List.head?_append_of_ne_nil _ Nat.toDigits_ne_nil]
  exact fun hhead => not_mem_toDigits (by decide) n (List.mem_of_head? hhead)

/-- A step without a value has lines, and they start with its number or with blanks. -/
theorem Step.lines_render_of_valueless {step : Step} (hvalueless : step.result = none)
    (htitle : '\n' ∉ step.title.toList) (number : Nat) :
    Text.lines (step.render showDetails number).toList ≠ [] ∧
    ∀ l ∈ Text.lines (step.render showDetails number).toList, l.head? ≠ some 'R' := by
  have hheading : '\n' ∉ (toString number ++ ". " ++ step.title).toList := by
    simpa [htitle] using not_mem_toDigits (by decide) number
  have hdetail : ∀ l ∈ Text.lines
      (if showDetails then (step.detail.map detailText).getD "" else "").toList,
      l.head? ≠ some 'R' := by
    cases showDetails with
    | false => exact List.forall_mem_nil _
    | true =>
        cases step.detail with
        | none => exact List.forall_mem_nil _
        | some detail => exact head?_ne_of_mem_indentLines fun l hl => Text.noFeed_of_mem_lines hl
  rw [render, hvalueless, Option.map_none, Option.getD_none, String.append_empty,
    String.toList_append, lines_line_append, Text.closedLines_eq_singleton hheading,
    List.singleton_append, List.forall_mem_cons, String.toList_append, String.toList_append,
    List.append_assoc]
  exact ⟨List.cons_ne_nil _ _, head?_ne_of_dropReturn (head?_toString_ne number _), hdetail⟩

theorem Trace.lastLine?_of_valueless {t : Trace} {last : Step} (h : t.EndsWith last)
    (hvalueless : last.result = none) (htitle : '\n' ∉ last.title.toList) (numeral : String) :
    t.lastLine? showDetails ≠ some ("Result: " ++ numeral).toList := by
  have hfinal := h.finalResult_eq.trans hvalueless
  obtain ⟨leading, -, hsteps⟩ := h
  obtain ⟨hne, hhead⟩ :=
    last.lines_render_of_valueless showDetails hvalueless htitle (1 + leading.length)
  have hnone : Text.lines "".toList = [] := rfl
  rw [lastLine?, lines_render, hfinal, hsteps, renderSteps_append, renderSteps, renderSteps,
    String.append_empty, String.toList_append, isClosed_renderSteps, Option.map_none,
    Option.getD_none, hnone, List.append_nil, ← List.append_assoc,
    List.getLast?_append_of_ne_nil _ hne]
  exact fun hlast => hhead _ (List.mem_of_getLast? hlast) (by simp)

end

/-! ## Outcomes -/

/-- The last step of an explanation without a value has a title on one line. -/
theorem Answers.exists_last_of_valueless {e : Explainer} {query : String} {o : Outcome}
    (h : Answers e query o) (htopic : e.explainTopic = outlineTopic)
    (hvalueless : o.trace.finalResult = none) :
    ∃ last, o.trace.EndsWith last ∧ last.result = none ∧ '\n' ∉ last.title.toList := by
  -- the title of an obstacle is known
  have hobstacle {last : Step} (hends : o.trace.EndsWith last) (hverdict : last.IsVerdict) :
      ∃ last, o.trace.EndsWith last ∧ last.result = none ∧ '\n' ∉ last.title.toList := by
    have hresult := hends.finalResult_eq.symm.trans hvalueless
    refine ⟨last, hends, hresult, ?_⟩
    rcases hverdict.valueless_iff.1 hresult with htitle | htitle <;> simp [htitle]
  cases h with
  | rejected reason =>
      cases reason with
      | invalidRadicand cause => exact ⟨_, ⟨[], List.forall_mem_nil _, rfl⟩, rfl, by simp⟩
      | unsupported | malformed | noPattern | queryTooLong =>
          exact ⟨_, ⟨[], List.forall_mem_nil _, rfl⟩, rfl, by simp⟩
  | @root _ n =>
      obtain ⟨last, hends, -, hvalue⟩ := exists_explainRoot_endsWith n
      rw [← hends.finalResult_eq, hvalueless] at hvalue
      cases hvalue
  | @operation o => exact hobstacle (explainOperation_endsWith o) (isVerdict_computeStep o)
  | @expression tree =>
      exact hobstacle (explainExpression_endsWith _ tree) (isVerdict_outcomeStep tree.evaluate)
  | general =>
      rw [htopic]
      obtain ⟨last, hends, -, hvalueless⟩ := outlineTopic_endsWith query
      have htitle : "Summarize and check understanding" = last.title :=
        Option.some.inj (congrArg (Option.map Step.title) hends.getLast?_eq)
      exact ⟨last, hends, hvalueless, by simp [← htitle]⟩

/-- The last line of a trace shows the value of the trace, or the trace has none. -/
theorem lastLine?_eq_iff (limits : Limits) (query : String) (showDetails : Bool)
    (numeral : String) :
    (Explainer.run { limits } query).trace.lastLine? showDetails =
        some ("Result: " ++ numeral).toList ↔
      ∃ v, (Explainer.run { limits } query).trace.finalResult = some v ∧ v.plain = numeral := by
  have hanswers := answers_run { limits } query
  have hfinite := hanswers.reportsFinite (outlineTopic_reportsFinite query)
  cases hvalue : (Explainer.run { limits } query).trace.finalResult with
  | none =>
      obtain ⟨last, hends, hvalueless, htitle⟩ := hanswers.exists_last_of_valueless rfl hvalue
      refine iff_of_false
        (Trace.lastLine?_of_valueless showDetails hends hvalueless htitle numeral) ?_
      rintro ⟨_, ⟨⟩, -⟩
  | some v =>
      rw [Trace.lastLine?_of_value showDetails hvalue (hfinite.final v hvalue), Option.some.injEq,
        String.toList_inj, String.append_right_inj]
      exact ⟨fun hnumeral => ⟨v, rfl, hnumeral⟩, fun ⟨_, heq, hnumeral⟩ =>
        (Option.some.inj heq) ▸ hnumeral⟩

/-- The document of an outcome reports the outcome, and what it gives as the final result is what
the last line in the terminal shows as the result. -/
theorem reports_agree :
    (∀ (query : String) (o : Outcome),
      (ExplainDocument.ofOutcome query o).Reports query o) ∧
    ∀ (limits : Limits) (query input : String) (showDetails : Bool) (numeral : String),
      let o := Explainer.run { limits } query
      o.trace.lastLine? showDetails = some ("Result: " ++ numeral).toList ↔
        ∃ v, (ExplainDocument.ofOutcome input o).finalResult = some v ∧ v.plain = numeral := by
  refine ⟨ExplainDocument.reports_ofOutcome, fun limits query input showDetails numeral => ?_⟩
  dsimp only
  rw [(ExplainDocument.reports_ofOutcome input _).covers.finalResult]
  exact lastLine?_eq_iff limits query showDetails numeral

end Stepwise
