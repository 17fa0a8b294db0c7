import Stepwise.Proofs.RootTraces
import Stepwise.Proofs.SingleOperation

set_option autoImplicit false

/-! # Finite values

Infinities and the value that is no number stay inside: no trace reports one. A literal is tested
when it is read, and the value of an operation when it is carried out, so an evaluation keeps to
finite values (`isFinite_of_evaluate`). The value of a root is not tested. It is a word or the
approximation of the root of a word, and both are far below the greatest finite number.
-/

namespace Stepwise

/-! ## Evaluation -/

/-- An operation on finite values with a finite value, which does not divide by zero. -/
structure Reduction.IsFinite (step : Reduction) : Prop where
  left : step.left.isFinite = true
  right : step.right.isFinite = true
  value : step.value.isFinite = true
  divisor : ¬ (step.op = .div ∧ step.right.isZero = true)

/-- A finite value that comes from finite operations. -/
structure Evaluation.IsFinite (evaluation : Evaluation) : Prop where
  value : evaluation.value.isFinite = true
  reductions : ∀ step ∈ evaluation.reductions, step.IsFinite

/-- Every number in the expression is finite. -/
def Expression.LiteralsFinite : Expression → Prop
  | .number value => value.isFinite = true
  | .negation operand => operand.LiteralsFinite
  | .binary _ left right => left.LiteralsFinite ∧ right.LiteralsFinite

instance Expression.decidableLiteralsFinite : (tree : Expression) → Decidable tree.LiteralsFinite
  | .number value => inferInstanceAs (Decidable (value.isFinite = true))
  | .negation operand => decidableLiteralsFinite operand
  | .binary _ left right =>
      @instDecidableAnd _ _ (decidableLiteralsFinite left) (decidableLiteralsFinite right)

theorem isFinite_of_reduce {x y : Binary64} {op : Operator} {step : Reduction}
    (hx : x.isFinite = true) (hy : y.isFinite = true) (h : reduce x op y = .ok step) :
    step.IsFinite := by
  obtain ⟨hdivisor, hvalue, rfl⟩ := reduce_eq_ok_iff.1 h
  exact ⟨hx, hy, hvalue, hdivisor⟩

/-- An evaluation that starts from finite numbers does not leave them. -/
theorem isFinite_of_evaluate {tree : Expression} (htree : tree.LiteralsFinite)
    {evaluation : Evaluation} (h : tree.evaluate = .ok evaluation) : evaluation.IsFinite := by
  induction tree generalizing evaluation with
  | number value =>
      cases h
      exact ⟨htree, List.forall_mem_nil _⟩
  | negation operand ih =>
      obtain ⟨inner, hinner, h⟩ := exists_ok_of_bind_eq_ok h
      cases h
      obtain ⟨hvalue, hreductions⟩ := ih htree hinner
      exact ⟨(Binary64.isFinite_neg inner.value).trans hvalue, hreductions⟩
  | binary op left right ihleft ihright =>
      obtain ⟨l, hl, h⟩ := exists_ok_of_bind_eq_ok h
      obtain ⟨r, hr, h⟩ := exists_ok_of_bind_eq_ok h
      obtain ⟨step, hstep, h⟩ := exists_ok_of_bind_eq_ok h
      cases h
      have hleft := ihleft htree.1 hl
      have hright := ihright htree.2 hr
      have hlast := isFinite_of_reduce hleft.value hright.value hstep
      refine ⟨hlast.value, ?_⟩
      intro other hother
      rw [List.mem_append, List.mem_append, List.mem_singleton] at hother
      rcases hother with (hother | hother) | rfl
      · exact hleft.reductions other hother
      · exact hright.reductions other hother
      · exact hlast

/-- The grammar has finite numbers only. -/
theorem Grammar.Derives.literalsFinite {depth : Nat} {level : Level} {tokens : List Token}
    {tree : Expression} (h : Derives depth level tokens tree) : tree.LiteralsFinite := by
  induction h with
  | number hfinite => exact hfinite
  | parentheses _ ih | unsigned _ ih | loneFactor _ ih | loneProduct _ ih => exact ih
  | negated _ ih => exact ih
  | multiplicative _ _ _ ihleft ihright | additive _ _ _ ihleft ihright => exact ⟨ihleft, ihright⟩

theorem literalsFinite_of_parseExpression {t : Text} {tree : Expression}
    (h : parseExpression t = .ok tree) : tree.LiteralsFinite := by
  obtain ⟨tokens, body, trailing, -, -, -, hderives⟩ := parseExpression_sound h
  exact hderives.literalsFinite

/-! ## Roots -/

theorem isFinite_ofNat {n : Nat} (h : n ≤ 2 ^ 64) : (Binary64.ofNat n).isFinite = true := by
  obtain ⟨m, hm, -⟩ := exists_ofNat_word_eq h
  rw [hm]
  rfl

theorem isFinite_roundToMillionths_sqrt {n : Nat} (hpos : 0 < n) (h : n ≤ 2 ^ 64) :
    (roundToMillionths (Binary64.ofNat n).sqrt).isFinite = true := by
  obtain ⟨m, hsqrt, hbound⟩ := exists_sqrt_ofNat_eq hpos h
  obtain ⟨product, hproduct, -, hlimit⟩ := exists_millionfold_eq hbound
  obtain ⟨result, hresult, -⟩ := exists_roundToMillionths_eq hlimit hproduct
  rw [hsqrt, hresult]
  rfl

/-! ## Traces -/

/-- Every value that the trace reports is finite. -/
structure Trace.ReportsFinite (t : Trace) : Prop where
  steps : ∀ step ∈ t.steps, ∀ x ∈ step.result, x.isFinite = true
  final : ∀ x ∈ t.finalResult, x.isFinite = true

/-- Only the value of the last step has to be looked at. -/
theorem Trace.EndsWith.reportsFinite {t : Trace} {last : Step} (h : t.EndsWith last)
    (hlast : ∀ x ∈ last.result, x.isFinite = true) : t.ReportsFinite := by
  refine ⟨fun step hstep => ?_, h.finalResult_eq ▸ hlast⟩
  rcases h.isLeading_or_eq hstep with hleading | rfl
  · rw [hleading.valueless]
    intro x hx
    cases hx
  · exact hlast

theorem Trace.EndsWith.reportsFinite_of_valueless {t : Trace} {last : Step} (h : t.EndsWith last)
    (hlast : last.result = none) : t.ReportsFinite := by
  refine h.reportsFinite ?_
  rw [hlast]
  intro x hx
  cases hx

theorem explainRoot_reportsFinite (n : UInt64) : (explainRoot n).ReportsFinite := by
  have hword := n.toNat_lt
  by_cases hsquare : IsSquare n.toNat
  · obtain ⟨k, hk⟩ := hsquare
    refine (explainRoot_endsWith_of_isSquare hk).reportsFinite ?_
    rintro x ⟨⟩
    have hle : k ≤ n.toNat := hk ▸ Nat.le_mul_self k
    exact isFinite_ofNat (hle.trans hword.le)
  · refine (explainRoot_endsWith_of_not_isSquare hsquare).reportsFinite ?_
    rintro x ⟨⟩
    exact isFinite_roundToMillionths_sqrt (pos_of_not_isSquare hsquare) hword.le

theorem explainOperation_reportsFinite (o : BinaryOperation) :
    (explainOperation o).ReportsFinite := by
  refine (explainOperation_endsWith o).reportsFinite ?_
  unfold computeStep
  split
  · rintro x ⟨⟩
  · dsimp only
    split
    · next hfinite =>
        rintro x ⟨⟩
        exact hfinite
    · rintro x ⟨⟩

theorem explainExpression_reportsFinite (t : Text) {tree : Expression}
    (htree : tree.LiteralsFinite) : (explainExpression t tree).ReportsFinite := by
  refine (explainExpression_endsWith t tree).reportsFinite ?_
  cases hevaluate : tree.evaluate with
  | ok evaluation =>
      rintro x ⟨⟩
      exact (isFinite_of_evaluate htree hevaluate).value
  | error cause =>
      cases cause <;> rintro x ⟨⟩

/-- An explainer reports finite values only, if its explainer of general topics does. -/
theorem Answers.reportsFinite {e : Explainer} {query : String} {outcome : Outcome}
    (h : Answers e query outcome) (htopic : (e.explainTopic query).ReportsFinite) :
    outcome.trace.ReportsFinite := by
  cases h with
  | rejected reason =>
      obtain ⟨last, hends, -, hvalueless⟩ := explainRejection_endsWith reason
      exact hends.reportsFinite_of_valueless hvalueless
  | root => exact explainRoot_reportsFinite _
  | operation => exact explainOperation_reportsFinite _
  | expression h => exact explainExpression_reportsFinite _ (literalsFinite_of_parseExpression h)
  | general => exact htopic

theorem outlineTopic_reportsFinite (query : String) : (outlineTopic query).ReportsFinite := by
  obtain ⟨last, hends, -, hvalueless⟩ := outlineTopic_endsWith query
  exact hends.reportsFinite_of_valueless hvalueless

/-- Within any limits, the answer to a query reports finite values only. An expression of finite
numbers has no value, or a finite one that comes from finite operations without a division by
zero. -/
theorem reported_and_evaluated_finite :
    (∀ (limits : Limits) (query : String),
      (Explainer.run { limits } query).trace.ReportsFinite) ∧
    ∀ tree : Expression, tree.LiteralsFinite →
      (∃ cause, tree.evaluate = .error cause) ∨
        ∃ evaluation, tree.evaluate = .ok evaluation ∧ evaluation.IsFinite := by
  refine ⟨fun limits query =>
    (answers_run { limits } query).reportsFinite (outlineTopic_reportsFinite query), ?_⟩
  intro tree htree
  cases hevaluate : tree.evaluate with
  | ok evaluation => exact .inr ⟨evaluation, rfl, isFinite_of_evaluate htree hevaluate⟩
  | error cause => exact .inl ⟨cause, rfl⟩

/-- `(1e308 + 7e307) / -2`, with a sum near the greatest finite number. -/
def nearLimit : Expression :=
  .binary .div
    (.binary .add (.number (Decimal.toBinary64 false ⟨1, 308⟩))
      (.number (Decimal.toBinary64 false ⟨7, 307⟩)))
    (.negation (.number (.ofNat 2)))

theorem reported_and_evaluated_finite_near_limit :
    nearLimit.LiteralsFinite ∧
    ∃ evaluation, nearLimit.evaluate = .ok evaluation ∧ evaluation.IsFinite := by
  have hliterals : nearLimit.LiteralsFinite := by decide +kernel
  have hevaluate : nearLimit.evaluate.isOk = true := by decide +kernel
  refine ⟨hliterals, ?_⟩
  rcases reported_and_evaluated_finite.2 nearLimit hliterals with ⟨cause, hcause⟩ | hfinite
  · rw [hcause] at hevaluate
    cases hevaluate
  · exact hfinite

end Stepwise
