import Stepwise.Number.Numeral
import Stepwise.Radical
import Stepwise.Trace

set_option autoImplicit false

/-! # Explaining a square root

The trace of `√n`: what a square root is, the prime factors of `n`, the pairs that move
outside, and the value. A perfect square ends with its root; any other number ends with its
simplified form and a decimal approximation to six places.
-/

namespace Stepwise

/-- The opening step. -/
def rootDefinition (n : UInt64) : Step :=
  { title := "Understand the task"
    detail := some ("We need the square root of " ++ toString n ++
      ". By definition, the square root of a number x is the non-negative number y " ++
      "such that y × y = x.") }

/-- The remaining steps for zero. -/
def zeroRootSteps : List Step :=
  [{ title := "Zero is its own square root"
     detail := some "0 × 0 = 0, so the square root of 0 is 0." },
   { title := "Final value", result := some (.zero false) }]

/-- The step that shows the prime factors. -/
def factorizationStep (s : Simplification) : Step :=
  { title := "Prime factorize the number"
    detail := some (
      if s.factors = [] then "1 has no prime factors, so there is nothing to pair."
      else toString s.radicand ++ " = " ++ productText s.factors) }

/-- The line of one extracted prime. -/
def PairExtraction.line (p : PairExtraction) : String :=
  toString p.prime ++ " appears in " ++ toString p.pairs ++ " pair" ++
    (if p.pairs > 1 then "s" else "") ++ " ⇒ contributes " ++ toString p.contribution ++
    " outside the root"

/-- The step that extracts the pairs, if there are any. -/
def extractionSteps (s : Simplification) : List Step :=
  if s.pairs = [] then []
  else
    [{ title := "Extract perfect square factors"
       detail := some (
        "Group equal primes in pairs. Each pair comes out of √ as a single prime.\n" ++
        joinWith "\n" (s.pairs.map PairExtraction.line)) }]

/-- The value rounded to six places by way of its millionfold. -/
def roundToMillionths (x : Binary64) : Binary64 :=
  (x.mul (.ofNat 1000000)).round.div (.ofNat 1000000)

/-- The closing steps: the exact root of a perfect square, or the simplified form and an
approximation. -/
def conclusionSteps (s : Simplification) : List Step :=
  if s.isPerfectSquare then
    [{ title := "All factors came out"
       detail := some "No prime is left under the square root." },
     { title := "Final value", result := some (.ofNat s.outside.toNat) }]
  else
    let approximation := (Binary64.ofNat s.radicand.toNat).sqrt
    [{ title := "Leftover under the root"
       detail := some (
        "One of each unpaired prime stays inside √, so the simplified form is " ++
        s.form ++ ".") },
     { title := "Decimal approximation"
       detail := some (
        "Using a calculator: √" ++ toString s.radicand ++ " ≈ " ++ approximation.fixed 6)
       result := some (roundToMillionths approximation) }]

/-! ## The whole explanation -/

section

variable {m : Type → Type} [Monad m]

/-- The steps of the explanation, given how a root is simplified. Zero has no simplification, and
none is asked for. -/
def rootStepsM (simplified : UInt64 → m Simplification) (n : UInt64) : m (List Step) :=
  if n = 0 then pure (rootDefinition n :: zeroRootSteps)
  else do
    let s ← simplified n
    return [rootDefinition n, factorizationStep s] ++ extractionSteps s ++ conclusionSteps s

/-- The explanation of the square root of a number, given how a root is simplified. -/
def explainRootM (simplified : UInt64 → m Simplification) (n : UInt64) : m Trace := do
  let steps ← rootStepsM simplified n
  return { title := "Detailed steps for √" ++ toString n, steps }

end

/-- The explanation of the square root of a number. -/
def explainRoot (n : UInt64) : Trace := Id.run (explainRootM (pure ∘ simplify) n)

theorem explainRoot_steps {n : UInt64} (hn : 1 ≤ n) :
    (explainRoot n).steps = [rootDefinition n, factorizationStep (simplify n)] ++
      extractionSteps (simplify n) ++ conclusionSteps (simplify n) := by
  have hne : n ≠ 0 := by
    rintro rfl
    exact absurd hn (by decide)
  show Id.run (rootStepsM (pure ∘ simplify) n) = _
  rw [rootStepsM, if_neg hne]
  rfl

end Stepwise
