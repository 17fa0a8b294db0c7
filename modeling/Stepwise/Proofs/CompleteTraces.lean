import Stepwise.Proofs.RootTraces

set_option autoImplicit false

/-! # Complete traces

Every query is answered with a complete trace (`Trace.IsComplete`), and the route tells how many
steps it has and whether it has a value (`Outcome.HasShape`). On the way there the factorization of
zero is never asked for: an explainer that would fail at it gives the same answers
(`run?_eq_ok`).
-/

namespace Stepwise

/-! ## The factorization of zero -/

theorem simplification?_eq_ok {n : UInt64} (h : n ≠ 0) : simplification? n = .ok (simplify n) :=
  if_neg h

/-- The simplification itself fails on zero. -/
example : simplification? 0 = .error .zero := rfl

section

variable {m : Type → Type} [Monad m] [LawfulMonad m] {simplified : UInt64 → m Simplification}
  (h : ∀ {n}, n ≠ 0 → simplified n = pure (simplify n))
include h

theorem explainRootM_eq_pure (n : UInt64) : explainRootM simplified n = pure (explainRoot n) := by
  rw [explainRootM, rootStepsM, explainRoot, explainRootM, rootStepsM]
  by_cases hzero : n = 0
  · rw [if_pos hzero, if_pos hzero, pure_bind]
    rfl
  · rw [if_neg hzero, if_neg hzero, h hzero, pure_bind, pure_bind]
    rfl

theorem explainMathM_eq_map (e : Explainer) (query : String) :
    e.explainMathM simplified query = (e.explainMath query).map pure := by
  rw [Explainer.explainMathM, Explainer.explainMath, explainText_all, Pattern.allM]
  cases hcall : parseRootCall (canonical query.toList) with
  | ok argument =>
      cases hradicand : readRadicand argument.text e.limits.maxRadicand with
      | ok n =>
          simp only [explainTextM, Pattern.rootM, hcall, hradicand, explainRootM_eq_pure h,
            pure_bind, Except.map]
      | error cause =>
          simp only [explainTextM, Pattern.rootM, hcall, hradicand, Except.map]
  | error _ =>
      cases hoperation : parseOperation (canonical query.toList) with
      | ok o =>
          simp only [explainTextM, Pattern.rootM, Pattern.operation, hcall, hoperation, pure_bind,
            Except.map]
      | error _ =>
          cases hexpression : parseExpression (canonical query.toList) with
          | ok tree =>
              simp only [explainTextM, Pattern.rootM, Pattern.operation, Pattern.expression, hcall,
                hoperation, hexpression, pure_bind, Except.map]
          | error cause =>
              simp only [explainTextM, Pattern.rootM, Pattern.operation, Pattern.expression, hcall,
                hoperation, hexpression, Except.map]

/-- Whatever becomes of a root of zero that is to be simplified, a query does not get there. -/
theorem runM_eq_pure (e : Explainer) (query : String) :
    e.runM simplified query = pure (e.run query) := by
  rw [Explainer.runM, Explainer.run_eq, explainMathM_eq_map h]
  split
  · rfl
  · split
    · cases e.explainMath query <;> rfl
    · rfl

end

/-- The outcome of a query, where factorizing zero is a failure. -/
def Explainer.run? (e : Explainer) (query : String) : Except FactorError Outcome :=
  e.runM simplification? query

/-- No query makes an explainer factorize zero. -/
theorem run?_eq_ok (e : Explainer) (query : String) : e.run? query = .ok (e.run query) :=
  runM_eq_pure simplification?_eq_ok e query

/-! ## Complete traces -/

/-- A trace with a title and titled steps, of which no other than the last one carries a value. -/
structure Trace.IsComplete (t : Trace) : Prop where
  titled : t.title ≠ ""
  nonempty : t.steps ≠ []
  stepsTitled : ∀ step ∈ t.steps, step.title ≠ ""
  valueless : ∀ step ∈ t.steps.dropLast, step.result = none

namespace Trace.EndsWith

variable {t : Trace} {last : Step}

theorem isComplete (h : t.EndsWith last) (htitle : t.title ≠ "") (hlast : last.title ≠ "") :
    t.IsComplete where
  titled := htitle
  nonempty := by
    obtain ⟨leading, -, hsteps⟩ := h
    rw [hsteps]
    exact List.append_ne_nil_of_right_ne_nil leading (List.cons_ne_nil last [])
  stepsTitled step hstep := by
    rcases h.isLeading_or_eq hstep with hleading | rfl
    · exact hleading.titled
    · exact hlast
  valueless step hstep := by
    obtain ⟨leading, hleading, hsteps⟩ := h
    rw [hsteps, List.dropLast_concat] at hstep
    exact (hleading step hstep).valueless

theorem hasResult_eq (h : t.EndsWith last) : t.hasResult = last.result.isSome := by
  rw [hasResult, h.finalResult_eq]

end Trace.EndsWith

/-! ## Traces without a value -/

/-- A title of a last step that stands in for a value. -/
def IsObstacle (title : String) : Prop :=
  title = "Check division by zero" ∨ title = "Check the magnitude"

/-- The last step of the trace tells why there is no value. -/
def Trace.StopsAtObstacle (t : Trace) : Prop :=
  ∃ last, t.steps.getLast? = some last ∧ IsObstacle last.title

/-- A step that has a value, or else a title that tells why there is none. -/
structure Step.IsVerdict (step : Step) : Prop where
  titled : step.title ≠ ""
  valueless_iff : step.result = none ↔ IsObstacle step.title

theorem isVerdict_divisionByZeroStep : divisionByZeroStep.IsVerdict :=
  ⟨by simp [divisionByZeroStep], iff_of_true rfl (.inl rfl)⟩

theorem isVerdict_overflowStep (what : String) : (overflowStep what).IsVerdict :=
  ⟨by simp [overflowStep], iff_of_true rfl (.inr rfl)⟩

theorem isVerdict_computeStep (o : BinaryOperation) : (computeStep o).IsVerdict := by
  unfold computeStep
  split
  · exact isVerdict_divisionByZeroStep
  · dsimp only
    split
    · exact ⟨by simp, by simp [IsObstacle]⟩
    · exact isVerdict_overflowStep _

theorem isVerdict_outcomeStep (result : Except EvaluationError Evaluation) :
    (outcomeStep result).IsVerdict := by
  cases result with
  | ok evaluation =>
      rw [outcomeStep, evaluationStep]
      exact ⟨by simp, by simp [IsObstacle]⟩
  | error cause =>
      cases cause with
      | divisionByZero dividend => exact isVerdict_divisionByZeroStep
      | overflow => exact isVerdict_overflowStep _

theorem Trace.EndsWith.hasResult_eq_false_iff {t : Trace} {last : Step} (h : t.EndsWith last)
    (hlast : last.IsVerdict) : t.hasResult = false ↔ t.StopsAtObstacle := by
  rw [h.hasResult_eq, Option.isSome_eq_false_iff, Option.isNone_iff_eq_none,
    hlast.valueless_iff, StopsAtObstacle, h.getLast?_eq]
  constructor
  · intro hobstacle
    exact ⟨last, rfl, hobstacle⟩
  · rintro ⟨_, ⟨⟩, hobstacle⟩
    exact hobstacle

/-! ## Shapes -/

/-- How many steps the traces of a route have, and when they have a value. -/
def Outcome.HasShape (outcome : Outcome) : Prop :=
  let t := outcome.trace
  match outcome.route with
  | .root => t.hasResult = true
  | .operation => t.steps.length = 3 ∧ (t.hasResult = false ↔ t.StopsAtObstacle)
  | .expression => t.steps.length = 2 ∧ (t.hasResult = false ↔ t.StopsAtObstacle)
  | .general => t.steps.length = 5 ∧ t.hasResult = false
  | .rejected _ => t.steps.length = 1 ∧ t.hasResult = false

/-- The last step on a root, a final value or an approximation. -/
theorem exists_explainRoot_endsWith (n : UInt64) :
    ∃ last, (explainRoot n).EndsWith last ∧ last.title ≠ "" ∧ last.result.isSome = true := by
  by_cases hsquare : IsSquare n.toNat
  · obtain ⟨k, hk⟩ := hsquare
    exact ⟨_, explainRoot_endsWith_of_isSquare hk, by simp [finalValueStep], rfl⟩
  · exact ⟨_, explainRoot_endsWith_of_not_isSquare hsquare, by simp [approximationStep], rfl⟩

theorem append_ne_empty {s : String} (h : s ≠ "") (t : String) : s ++ t ≠ "" := by
  simp [h]

theorem explainRejection_title_ne (reason : Rejection) : (explainRejection reason).title ≠ "" := by
  cases reason <;> simp [explainRejection, explainRadicandError, notRecognized]

theorem explainRoot_title_ne (n : UInt64) : (explainRoot n).title ≠ "" :=
  append_ne_empty (by decide) _

theorem explainOperation_title_ne (o : BinaryOperation) : (explainOperation o).title ≠ "" :=
  append_ne_empty (by decide) _

theorem explainExpression_title_ne (t : Text) (e : Expression) :
    (explainExpression t e).title ≠ "" :=
  append_ne_empty (by decide) _

theorem explainRejection_length (reason : Rejection) :
    (explainRejection reason).steps.length = 1 := by
  cases reason <;> rfl

theorem explainRoot_length_le (n : UInt64) : (explainRoot n).steps.length ≤ 5 := by
  by_cases hzero : n = 0
  · rw [hzero]
    decide
  · have hextraction : (extractionSteps (simplify n)).length ≤ 1 := by
      unfold extractionSteps
      split <;> simp
    have hconclusion : (conclusionSteps (simplify n)).length = 2 := by
      unfold conclusionSteps
      split <;> rfl
    have hn : 1 ≤ n := UInt64.le_iff_toNat_le.2 <|
      Nat.one_le_iff_ne_zero.2 fun h => hzero (UInt64.toNat_inj.1 h)
    simp only [explainRoot_steps hn, List.length_append, List.length_cons, List.length_nil,
      hconclusion]
    omega

/-- Every answer is a complete trace of the shape of its route. -/
theorem Answers.isComplete {e : Explainer} {query : String} {outcome : Outcome}
    (h : Answers e query outcome) (htopic : e.explainTopic = outlineTopic) :
    outcome.trace.IsComplete ∧ outcome.HasShape := by
  cases h with
  | rejected reason =>
      obtain ⟨last, hends, htitled, hvalueless⟩ := explainRejection_endsWith reason
      refine ⟨hends.isComplete (explainRejection_title_ne reason) htitled,
        explainRejection_length reason, ?_⟩
      rw [Explainer.reject, hends.hasResult_eq, hvalueless]
      rfl
  | @root _ n =>
      obtain ⟨last, hends, htitled, hvalue⟩ := exists_explainRoot_endsWith n
      exact ⟨hends.isComplete (explainRoot_title_ne n) htitled, hends.hasResult_eq.trans hvalue⟩
  | @operation o =>
      have hends := explainOperation_endsWith o
      have hlast := isVerdict_computeStep o
      have hlength : (explainOperation o).steps.length = 3 := rfl
      exact ⟨hends.isComplete (explainOperation_title_ne o) hlast.titled, hlength,
        hends.hasResult_eq_false_iff hlast⟩
  | @expression tree =>
      have hends := explainExpression_endsWith (canonical query.toList) tree
      have hlast := isVerdict_outcomeStep tree.evaluate
      have hlength : (explainExpression (canonical query.toList) tree).steps.length = 2 := rfl
      exact ⟨hends.isComplete (explainExpression_title_ne _ tree) hlast.titled, hlength,
        hends.hasResult_eq_false_iff hlast⟩
  | general =>
      rw [htopic]
      obtain ⟨last, hends, htitled, hvalueless⟩ := outlineTopic_endsWith query
      have hlength : (outlineTopic query).steps.length = 5 := rfl
      refine ⟨hends.isComplete (by simp [outlineTopic]) htitled, hlength, ?_⟩
      rw [hends.hasResult_eq, hvalueless]
      rfl

theorem Answers.exists_endsWith {e : Explainer} {query : String} {o : Outcome}
    (h : Answers e query o) (htopic : e.explainTopic = outlineTopic) :
    ∃ last, o.trace.EndsWith last := by
  cases h with
  | rejected reason =>
      obtain ⟨last, hends, -⟩ := explainRejection_endsWith reason
      exact ⟨last, hends⟩
  | @root _ n =>
      obtain ⟨last, hends, -⟩ := exists_explainRoot_endsWith n
      exact ⟨last, hends⟩
  | operation => exact ⟨_, explainOperation_endsWith _⟩
  | expression => exact ⟨_, explainExpression_endsWith _ _⟩
  | general =>
      rw [htopic]
      obtain ⟨last, hends, -⟩ := outlineTopic_endsWith query
      exact ⟨last, hends⟩

/-- No answer has more than five steps. -/
theorem Answers.length_le {e : Explainer} {query : String} {o : Outcome}
    (h : Answers e query o) (htopic : e.explainTopic = outlineTopic) :
    o.trace.steps.length ≤ 5 := by
  cases h with
  | rejected reason =>
      have hlength := explainRejection_length reason
      show (explainRejection reason).steps.length ≤ 5
      omega
  | @root _ n => exact explainRoot_length_le n
  | operation => exact (by decide : 3 ≤ 5)
  | expression => exact (by decide : 2 ≤ 5)
  | general =>
      rw [htopic]
      exact (by decide : 5 ≤ 5)

/-- Within any limits, a query is answered without factorizing zero, and the answer is a complete
trace of the shape of its route. -/
theorem run_complete (limits : Limits) (query : String) :
    Explainer.run? { limits } query = .ok (Explainer.run { limits } query) ∧
    (Explainer.run { limits } query).trace.IsComplete ∧
    (Explainer.run { limits } query).HasShape :=
  ⟨run?_eq_ok _ query, (answers_run _ query).isComplete rfl⟩

end Stepwise
