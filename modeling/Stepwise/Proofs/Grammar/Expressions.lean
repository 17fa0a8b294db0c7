import Stepwise.Proofs.Grammar.Completeness

set_option autoImplicit false

/-! # The texts that are expressions

The grammar against the reading of a whole text: a text is read as an expression exactly if
it is written as tokens that derive the expression, with white space behind them or none
(`parseExpression_eq_ok_iff`). The gate in front of the recognizers never refuses such a text.
-/

namespace Stepwise

open Grammar

/-- The gate lets every text of arithmetic characters through that is not white space only. -/
theorem checkCharacters_eq_ok {t : Text} (hne : ¬ AllWhiteSpace t)
    (hall : ∀ c ∈ t, isArithmeticChar c = true) : checkCharacters t = .ok () := by
  have htrim : Text.trim t ≠ [] := fun h => hne ((Text.trim_eq_nil_iff t).1 h)
  have hforeign : firstForeign? t = none :=
    (firstForeign?_eq_none_iff t).2 (List.all_eq_true.2 hall)
  rw [checkCharacters, if_neg htrim, hforeign]

theorem isArithmeticChar_of_isWhiteSpace {c : Char} (h : isWhiteSpace c = true) :
    isArithmeticChar c = true := by
  simp [isArithmeticChar, h]

/-- The recognizer of sums takes the tokens and leaves the white space behind them. -/
theorem sum_nested_of_derives {depth : Nat} {tokens : List Token} {body trailing : Text}
    {e : Expression} (hspells : Spells tokens body) (htrailing : AllWhiteSpace trailing)
    (hderives : Derives depth .sum tokens e) :
    sum (nested depth) (body ++ trailing) = .ok (e, trailing) := by
  have hends : NumberEnds trailing := by simpa using NumberEnds.append htrailing numberEnds_nil
  have hmul := nextOperator?_of_allWhiteSpace (productRules depth) htrailing
  have hadd := nextOperator?_of_allWhiteSpace (sumRules depth) htrailing
  exact (hderives.recognizes hspells trailing ⟨hends, hmul⟩).sum_ok hadd

/-- A text of tokens that derive an expression is read as this expression. -/
theorem parseExpression_complete {tokens : List Token} {body trailing : Text} {e : Expression}
    (hspells : Spells tokens body) (htrailing : AllWhiteSpace trailing)
    (hderives : Derives maxNesting .sum tokens e) :
    parseExpression (body ++ trailing) = .ok e := by
  have hgate : checkCharacters (body ++ trailing) = .ok () := by
    apply checkCharacters_eq_ok
    · intro hwhite
      refine hspells.not_allWhiteSpace hderives.tokens_ne_nil fun c hc => hwhite c ?_
      exact List.mem_append_left _ hc
    · intro c hc
      rcases List.mem_append.1 hc with hc | hc
      · exact hspells.allArithmetic c hc
      · exact isArithmeticChar_of_isWhiteSpace (htrailing c hc)
  have hrest : Text.trim trailing = [] := (Text.trim_eq_nil_iff trailing).2 htrailing
  have hread : expression (body ++ trailing) = .ok (e, trailing) :=
    sum_nested_of_derives hspells htrailing hderives
  simp only [parseExpression, hgate, parseArithmetic, hread, hrest]

/-- An expression is read only from tokens that derive it. -/
theorem parseExpression_sound {text : Text} {e : Expression}
    (h : parseExpression text = .ok e) :
    ∃ tokens body trailing, text = body ++ trailing ∧ Spells tokens body ∧
      AllWhiteSpace trailing ∧ Derives maxNesting .sum tokens e := by
  unfold parseExpression at h
  split at h
  · cases h
  · split at h
    · cases h
    · next e' harithmetic =>
        cases h
        unfold parseArithmetic at harithmetic
        split at harithmetic
        · cases harithmetic
        · cases harithmetic
        · cases harithmetic
        · next e' trailing hsum =>
            split at harithmetic
            · next htrim =>
                cases harithmetic
                obtain ⟨tokens, body, htext, hspells, hderives⟩ := sum_nested_sound maxNesting hsum
                exact ⟨tokens, body, trailing, htext, hspells,
                  (Text.trim_eq_nil_iff trailing).1 htrim, hderives⟩
            · cases harithmetic

/-- What is read as an expression has arithmetic characters only. -/
theorem allArithmetic_of_parseExpression {text : Text} {e : Expression}
    (h : parseExpression text = .ok e) : ∀ c ∈ text, isArithmeticChar c = true := by
  obtain ⟨tokens, body, trailing, rfl, hspells, htrailing, -⟩ := parseExpression_sound h
  exact List.forall_mem_append.2
    ⟨hspells.allArithmetic, fun c hc => isArithmeticChar_of_isWhiteSpace (htrailing c hc)⟩

/-- A text is read as an expression exactly if it is a run of tokens, each with blanks in front
of it or none, and white space behind the last one or none, such that the tokens derive the
expression with parentheses that nest at most 64 deep. -/
theorem parseExpression_eq_ok_iff (text : Text) (e : Expression) :
    parseExpression text = .ok e ↔
      ∃ tokens body trailing, text = body ++ trailing ∧ Spells tokens body ∧
        AllWhiteSpace trailing ∧ Derives 64 .sum tokens e := by
  constructor
  · intro h
    exact parseExpression_sound h
  · rintro ⟨tokens, body, trailing, rfl, hspells, htrailing, hderives⟩
    exact parseExpression_complete hspells htrailing hderives

end Stepwise
