import Stepwise.Prime

set_option autoImplicit false

/-! # Simplifying a square root

`√n = outside · √inside`. The prime factors of the radicand are counted (`tally`), one factor
of every pair of equal primes moves outside, and a prime left without a partner stays inside
(`simplify`).
-/

namespace Stepwise

/-! ## Counting equal values -/

/-- One more of a value: its count goes up, and a new value is counted at the end. -/
def countOne (value : UInt64) : List (UInt64 × Nat) → List (UInt64 × Nat)
  | [] => [(value, 1)]
  | (key, count) :: rest =>
      if key = value then (key, count + 1) :: rest else (key, count) :: countOne value rest

/-- The distinct values in order of first appearance, each with the number of times it
appears. -/
def tally (values : List UInt64) : List (UInt64 × Nat) :=
  values.foldl (fun counts value => countOne value counts) []

/-! ## Pairs -/

/-- A prime of which at least one pair moves outside the root. -/
structure PairExtraction where
  prime : UInt64
  /-- The number of complete pairs. -/
  pairs : Nat
  /-- The power of the prime that the pairs leave outside. -/
  contribution : UInt64
  deriving DecidableEq, Repr

/-- The pairs of a prime that is counted so many times, if there are any. -/
def PairExtraction.ofCount (entry : UInt64 × Nat) : Option PairExtraction :=
  let pairs := entry.2 / 2
  if pairs = 0 then none else some ⟨entry.1, pairs, entry.1 ^ pairs⟩

/-- The product of words. -/
def wordProduct (values : List UInt64) : UInt64 := values.foldl (· * ·) 1

/-- A square root taken apart: `√radicand = outside · √inside`. -/
structure Simplification where
  radicand : UInt64
  outside : UInt64
  inside : UInt64
  /-- The extracted primes in order of first appearance among the factors. -/
  pairs : List PairExtraction
  /-- The prime factors of the radicand. -/
  factors : List UInt64
  deriving DecidableEq, Repr

/-- The simplification of the root of a positive number. -/
def simplify (n : UInt64) : Simplification :=
  let factors := primeFactors n
  let counts := tally factors
  let pairs := counts.filterMap PairExtraction.ofCount
  let unpaired := counts.filter fun entry => entry.2 % 2 = 1
  { radicand := n
    outside := wordProduct (pairs.map PairExtraction.contribution)
    inside := wordProduct (unpaired.map Prod.fst)
    pairs
    factors }

/-- The simplification of the root of a number that has a factorization. -/
def simplification? (n : UInt64) : Except FactorError Simplification :=
  if n = 0 then .error .zero else .ok (simplify n)

namespace Simplification

/-- Nothing is left under the root. -/
def isPerfectSquare (s : Simplification) : Bool := s.inside = 1

/-- `outside · √inside`, without the coefficient when it is one. -/
def form (s : Simplification) : String :=
  if s.outside = 1 then "√" ++ toString s.inside
  else toString s.outside ++ " · √" ++ toString s.inside

end Simplification

end Stepwise
