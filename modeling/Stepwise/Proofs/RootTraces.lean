import Stepwise.Proofs.Approximation
import Stepwise.Proofs.Numerals
import Stepwise.Proofs.Outcomes
import Stepwise.Proofs.Radicands
import Stepwise.Proofs.Synonyms

set_option autoImplicit false

/-! # The explanation of a root, step by step

The explanation of the root of a perfect square ends with the root, and that of any other number
with an approximation (`explainRoot_endsWith_of_isSquare`, `explainRoot_endsWith_of_not_isSquare`).
A number in decimal digits is read as the radicand that it is, so this is also what the query
`sqrt(n)` is answered with.
-/

namespace Stepwise

/-! ## Steps -/

/-- The last step on a square. -/
def finalValueStep (root : Nat) : Step :=
  { title := "Final value", result := some (.ofNat root) }

/-- The last step on a number that is no square. -/
def approximationStep (n : UInt64) : Step :=
  { title := "Decimal approximation"
    detail := some ("Using a calculator: √" ++ toString n ++ " ≈ " ++
      (Binary64.ofNat n.toNat).sqrt.fixed 6)
    result := some (roundToMillionths (Binary64.ofNat n.toNat).sqrt) }

theorem isLeading_rootDefinition (n : UInt64) : (rootDefinition n).IsLeading :=
  ⟨by simp [rootDefinition], rfl, by simp [rootDefinition]⟩

theorem isLeading_factorizationStep (s : Simplification) : (factorizationStep s).IsLeading :=
  ⟨by simp [factorizationStep], rfl, by simp [factorizationStep]⟩

theorem isLeading_of_mem_extractionSteps {s : Simplification} {step : Step}
    (h : step ∈ extractionSteps s) : step.IsLeading := by
  unfold extractionSteps at h
  split at h
  · cases h
  · rw [List.mem_singleton.1 h]
    exact ⟨by simp, rfl, by simp⟩

/-- The conclusion is one leading step and the last step. -/
theorem exists_leading_conclusionSteps (n : UInt64) :
    ∃ step, step.IsLeading ∧ conclusionSteps (simplify n) = [step,
      if (simplify n).isPerfectSquare then finalValueStep (simplify n).outside.toNat
      else approximationStep n] := by
  unfold conclusionSteps
  split
  · exact ⟨_, ⟨by simp, rfl, by simp⟩, rfl⟩
  · exact ⟨_, ⟨by simp, rfl, by simp⟩, rfl⟩

/-! ## Explanations -/

theorem explainRoot_endsWith {n : UInt64} (hn : 1 ≤ n) :
    (explainRoot n).EndsWith
      (if (simplify n).isPerfectSquare then finalValueStep (simplify n).outside.toNat
      else approximationStep n) := by
  obtain ⟨step, hstep, hconclusion⟩ := exists_leading_conclusionSteps n
  refine ⟨[rootDefinition n, factorizationStep (simplify n)] ++ extractionSteps (simplify n) ++
    [step], ?_, ?_⟩
  · intro other hother
    simp only [List.mem_append, List.mem_cons, List.not_mem_nil, or_false] at hother
    rcases hother with ((rfl | rfl) | hother) | rfl
    · exact isLeading_rootDefinition n
    · exact isLeading_factorizationStep _
    · exact isLeading_of_mem_extractionSteps hother
    · exact hstep
  · rw [explainRoot_steps hn, hconclusion, List.append_assoc _ [step]]
    rfl

/-- Zero has steps of its own. -/
theorem explainRoot_zero_endsWith : (explainRoot 0).EndsWith (finalValueStep 0) := by
  have hvalue : Binary64.zero false = Binary64.ofNat 0 := by
    rw [Binary64.zero, Binary64.ofNat, Nat.zero_mul]
  refine ⟨rootDefinition 0 :: zeroRootSteps.dropLast, ?_, ?_⟩
  · intro step hstep
    simp only [zeroRootSteps, List.dropLast_cons_cons, List.dropLast_singleton, List.mem_cons,
      List.not_mem_nil, or_false] at hstep
    rcases hstep with rfl | rfl
    · exact isLeading_rootDefinition 0
    · exact ⟨by simp, rfl, by simp⟩
  · rw [finalValueStep, ← hvalue]
    rfl

/-- What stays outside the root of a square is its root. -/
theorem toNat_outside_simplify {n : UInt64} {k : Nat} (hn : 1 ≤ n) (h : n.toNat = k * k) :
    (simplify n).outside.toNat = k := by
  have hsquare : IsSplit n.toNat k 1 := ⟨by rw [mul_one, h], squarefree_one⟩
  exact ((isSplit_simplify hn).unique (UInt64.le_iff_toNat_le.1 hn) hsquare).1

/-- The explanation of the root of a square ends with the root. -/
theorem explainRoot_endsWith_of_isSquare {n : UInt64} {k : Nat} (h : n.toNat = k * k) :
    (explainRoot n).EndsWith (finalValueStep k) := by
  by_cases hn : 1 ≤ n
  · have hends := explainRoot_endsWith hn
    rwa [if_pos ((isPerfectSquare_simplify_iff hn).2 ⟨k, h⟩), toNat_outside_simplify hn h]
      at hends
  · have hzero : n.toNat = 0 := by
      rw [UInt64.le_iff_toNat_le] at hn
      have hone : (1 : UInt64).toNat = 1 := rfl
      omega
    obtain rfl : n = 0 := UInt64.toNat_inj.1 hzero
    obtain rfl : k = 0 := by
      rw [hzero] at h
      exact mul_self_eq_zero.1 h.symm
    exact explainRoot_zero_endsWith

theorem pos_of_not_isSquare {n : Nat} (h : ¬ IsSquare n) : 0 < n := by
  refine Nat.pos_of_ne_zero fun hzero => h ?_
  rw [hzero]
  exact IsSquare.zero

/-- The explanation of the root of any other number ends with an approximation. -/
theorem explainRoot_endsWith_of_not_isSquare {n : UInt64} (h : ¬ IsSquare n.toNat) :
    (explainRoot n).EndsWith (approximationStep n) := by
  have hn : 1 ≤ n := UInt64.le_iff_toNat_le.2 (pos_of_not_isSquare h)
  have hends := explainRoot_endsWith hn
  rwa [if_neg fun hsquare => h ((isPerfectSquare_simplify_iff hn).1 hsquare)] at hends

/-! ## Queries for a number -/

/-- The literal of a natural number. -/
def Literal.ofNat (n : Nat) : Literal := ⟨false, Nat.toDigits 10 n, none⟩

theorem Literal.isDecimal_ofNat (n : Nat) : (Literal.ofNat n).IsDecimal :=
  .whole Nat.toDigits_ne_nil (allDigits_toDigits n)

theorem Literal.text_ofNat (n : Nat) : (Literal.ofNat n).text = Nat.toDigits 10 n := by
  simp [Literal.ofNat, Literal.text]

/-- A natural number within the limit is a radicand. -/
theorem readRadicand_ofNat {n : Nat} {max : UInt64} (h : n ≤ max.toNat) :
    readRadicand (Literal.ofNat n).text max = .ok (.ofNat n) := by
  rw [readRadicand_text (Literal.isDecimal_ofNat n)]
  simp [Literal.ofNat, isAllZeros, h]

/-- The query for the root of a number, in decimal digits. -/
def rootQuery (n : Nat) : String := "sqrt(" ++ toString n ++ ")"

theorem toList_rootQuery (n : Nat) : (rootQuery n).toList = rootCall (.ofNat n) := by
  rw [rootQuery, rootCall, Literal.text_ofNat, String.toList_append, String.toList_append,
    toList_toString]
  rfl

/-- The query for the root of a number within the limits is answered with its explanation. -/
theorem run_rootQuery {e : Explainer} {n : Nat} (hn : n ≤ e.limits.maxRadicand.toNat)
    (hlength : (rootQuery n).length ≤ e.limits.maxQueryChars) :
    e.run (rootQuery n) = ⟨explainRoot (.ofNat n), .root⟩ := by
  have hdecimal := Literal.isDecimal_ofNat n
  have hphrasing : Phrasing (.ofNat n) (rootCall (.ofNat n)) := .call (callText_rootCall hdecimal)
  have htrim : Text.trim (rootQuery n).toList = rootCall (.ofNat n) := by
    rw [toList_rootQuery]
    exact Text.trim_eq_self (isTrimmed_rootCall _)
  have hcue : HasRootCue (Text.trim (rootQuery n).toList) := by
    rw [htrim]
    exact hphrasing.hasRootCue
  rw [run_eq_rootOutcome hlength hcue (hphrasing.callText_canonical hdecimal htrim), rootOutcome,
    readRadicand_ofNat hn]

/-! ## Squares and other numbers -/

/-- The number is exactly a natural number. -/
def Binary64.IsNat (x : Binary64) (k : Nat) : Prop :=
  ∃ m : Magnitude, x = .finite false m ∧ m.units = k * unitsPerOne

/-- The query for the root of a number within the limits is explained as a root. It ends with the
exact root if the number is a square, and else with an approximation and without a final value. -/
theorem run_rootQuery_resolves {e : Explainer} {n : Nat} (hn : n ≤ e.limits.maxRadicand.toNat)
    (hlength : (rootQuery n).length ≤ e.limits.maxQueryChars) :
    (e.run (rootQuery n)).route = .root ∧
    (∀ k, n = k * k →
      (e.run (rootQuery n)).trace.steps.getLast?.map Step.title = some "Final value" ∧
      ∃ x, (e.run (rootQuery n)).trace.finalResult = some x ∧ x.IsNat k) ∧
    (¬ IsSquare n →
      (e.run (rootQuery n)).trace.steps.getLast?.map Step.title = some "Decimal approximation" ∧
      ∀ step ∈ (e.run (rootQuery n)).trace.steps, step.title ≠ "Final value") := by
  have hword : (UInt64.ofNat n).toNat = n :=
    UInt64.toNat_ofNat_of_lt' (hn.trans_lt e.limits.maxRadicand.toNat_lt)
  rw [run_rootQuery hn hlength]
  refine ⟨rfl, fun k hk => ?_, fun hsquare => ?_⟩
  · have hends := explainRoot_endsWith_of_isSquare (hword.trans hk)
    have hsmall : k < 2 ^ 53 := by
      by_contra hlarge
      have hmul : 2 ^ 53 * 2 ^ 53 ≤ k * k := Nat.mul_le_mul (by omega) (by omega)
      have hlt := (UInt64.ofNat n).toNat_lt
      omega
    refine ⟨?_, .ofNat k, hends.finalResult_eq, Binary64.exists_ofNat_eq hsmall⟩
    rw [hends.getLast?_eq]
    rfl
  · rw [← hword] at hsquare
    have hends := explainRoot_endsWith_of_not_isSquare hsquare
    constructor
    · rw [hends.getLast?_eq]
      rfl
    · intro step hstep
      rcases hends.isLeading_or_eq hstep with hleading | rfl
      · exact hleading.notFinal
      · simp [approximationStep]

/-- The root of the greatest square that is a word, without a limit on radicands. -/
theorem run_rootQuery_resolves_greatest_square :
    4294967295 * 4294967295 ≤ (18446744073709551615 : UInt64).toNat ∧
    (rootQuery (4294967295 * 4294967295)).length ≤ 4096 ∧
    ∃ x, (Explainer.run { limits := { maxRadicand := 18446744073709551615 } }
      (rootQuery (4294967295 * 4294967295))).trace.finalResult = some x ∧ x.IsNat 4294967295 := by
  have hlength : (rootQuery (4294967295 * 4294967295)).length ≤ 4096 := by decide
  obtain ⟨-, hsquare, -⟩ := run_rootQuery_resolves
    (e := { limits := { maxRadicand := 18446744073709551615 } }) (by decide) hlength
  exact ⟨by decide, hlength, (hsquare 4294967295 rfl).2⟩

end Stepwise
