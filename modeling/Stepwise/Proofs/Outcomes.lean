import Stepwise.Explainer

set_option autoImplicit false

/-! # The outcomes of a query

A query is rejected, explained as a root, as an operation or as an expression, or outlined as a
general topic (`Answers`). A mathematical explanation is one of what the canonical form of the
query was read as. Each trace is some leading steps, which carry no value, and a last step
(`Trace.EndsWith`), so what holds of every outcome is proved by cases on the five ways, and for
each way from its last step.
-/

namespace Stepwise

/-! ## The last step -/

/-- A step in front of the last one: it carries no value, and does not announce a final one. -/
structure Step.IsLeading (step : Step) : Prop where
  titled : step.title ≠ ""
  valueless : step.result = none
  notFinal : step.title ≠ "Final value"

/-- The trace is some leading steps and the last one. -/
def Trace.EndsWith (t : Trace) (last : Step) : Prop :=
  ∃ leading, (∀ step ∈ leading, step.IsLeading) ∧ t.steps = leading ++ [last]

namespace Trace.EndsWith

variable {t : Trace} {last : Step}

theorem getLast?_eq (h : t.EndsWith last) : t.steps.getLast? = some last := by
  obtain ⟨leading, -, hsteps⟩ := h
  rw [hsteps, List.getLast?_concat]

/-- The value of the trace is the one that its last step carries. -/
theorem finalResult_eq (h : t.EndsWith last) : t.finalResult = last.result := by
  obtain ⟨leading, hleading, hsteps⟩ := h
  obtain ⟨title, steps⟩ := t
  obtain rfl : steps = leading ++ [last] := hsteps
  exact finalResult_concat title leading last fun step hmem => (hleading step hmem).valueless

theorem isLeading_or_eq (h : t.EndsWith last) {step : Step} (hstep : step ∈ t.steps) :
    step.IsLeading ∨ step = last := by
  obtain ⟨leading, hleading, hsteps⟩ := h
  rw [hsteps] at hstep
  rcases List.mem_append.1 hstep with hstep | hstep
  · exact .inl (hleading step hstep)
  · exact .inr (List.mem_singleton.1 hstep)

end Trace.EndsWith

theorem explainRejection_endsWith (reason : Rejection) :
    ∃ last, (explainRejection reason).EndsWith last ∧ last.title ≠ "" ∧ last.result = none := by
  cases reason with
  | invalidRadicand cause => exact ⟨_, ⟨[], List.forall_mem_nil _, rfl⟩, by simp, rfl⟩
  | unsupported | malformed | noPattern | queryTooLong =>
      exact ⟨_, ⟨[], List.forall_mem_nil _, rfl⟩, by simp, rfl⟩

theorem explainOperation_endsWith (o : BinaryOperation) :
    (explainOperation o).EndsWith (computeStep o) := by
  refine ⟨[_, _], ?_, rfl⟩
  simp only [List.forall_mem_cons]
  refine ⟨⟨by simp, rfl, by simp⟩, ⟨?_, rfl, ?_⟩, List.forall_mem_nil _⟩
  · cases o.op <;> decide
  · cases o.op <;> decide

theorem explainExpression_endsWith (t : Text) (e : Expression) :
    (explainExpression t e).EndsWith (outcomeStep e.evaluate) := by
  refine ⟨[_], ?_, rfl⟩
  rw [List.forall_mem_singleton]
  exact ⟨by simp, rfl, by simp⟩

theorem outlineTopic_endsWith (query : String) :
    ∃ last, (outlineTopic query).EndsWith last ∧ last.title ≠ "" ∧ last.result = none := by
  refine ⟨_, ⟨[_, _, _, _], ?_, rfl⟩, by simp, rfl⟩
  simp only [List.forall_mem_cons]
  exact ⟨⟨by simp, rfl, by simp⟩, ⟨by simp, rfl, by simp⟩, ⟨by simp, rfl, by simp⟩,
    ⟨by simp, rfl, by simp⟩, List.forall_mem_nil _⟩

/-! ## The ways to an outcome -/

/-- The ways in which an explainer answers a query. -/
inductive Answers (e : Explainer) (query : String) : Outcome → Prop
  | rejected (reason : Rejection) : Answers e query (Explainer.reject reason)
  | root {argument : Literal} {n : UInt64}
      (hcall : parseRootCall (canonical query.toList) = .ok argument)
      (hradicand : readRadicand argument.text e.limits.maxRadicand = .ok n) :
      Answers e query ⟨explainRoot n, .root⟩
  | operation {o : BinaryOperation} (h : parseOperation (canonical query.toList) = .ok o) :
      Answers e query ⟨explainOperation o, .operation⟩
  | expression {tree : Expression} (h : parseExpression (canonical query.toList) = .ok tree) :
      Answers e query ⟨explainExpression (canonical query.toList) tree, .expression⟩
  | general : Answers e query ⟨e.explainTopic query, .general⟩

/-- What a query is explained as is what its canonical form was read as. -/
theorem answers_of_explainMath {e : Explainer} {query : String} {outcome : Outcome}
    (h : e.explainMath query = .ok outcome) : Answers e query outcome := by
  rw [Explainer.explainMath, explainText_all] at h
  split at h
  · next argument hcall =>
      split at h
      · next n hradicand =>
          cases h
          exact .root hcall hradicand
      · cases h
  · split at h
    · next o hoperation =>
        cases h
        exact .operation hoperation
    · split at h
      · next tree hexpression =>
          cases h
          exact .expression hexpression
      · cases h

/-- Every query is answered in one of these ways. -/
theorem answers_run (e : Explainer) (query : String) : Answers e query (e.run query) := by
  rw [Explainer.run_eq]
  split
  · exact .rejected _
  · split
    · split
      · next outcome hmath => exact answers_of_explainMath hmath
      · exact .rejected _
    · exact .general

end Stepwise
