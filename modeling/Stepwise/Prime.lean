import Stepwise.Number.Rounding
import Stepwise.Text.Join

set_option autoImplicit false

/-! # Prime factors of 64-bit words

Trial division on 64-bit words. The factors of a number are found smallest first:
`leastFactor` finds the smallest one and `primeFactors` divides it out until nothing is left.

The candidates after 2 and 3 are the numbers that neither of them divides: 5, 7, 11, 13, and
so on, with gaps of 2 and 4 in turn. The search ends with the first candidate `d` that has
`n / d < d`, so no candidate that is tried exceeds `2^32`, and no addition leaves the word
(`toNat_lt_of_le_div`). The least factor of a perfect square is the least factor of its root,
which shortens the search for the square of a large prime.
-/

namespace Stepwise

/-- A candidate whose square is at most a word is below `2^32`. -/
theorem toNat_lt_of_le_div {n d : UInt64} (h : d ≤ n / d) : d.toNat < 2 ^ 32 := by
  have hle : d.toNat ≤ n.toNat / d.toNat := by
    rw [← UInt64.toNat_div]; exact UInt64.le_iff_toNat_le.1 h
  have hn : n.toNat < 2 ^ 64 := n.toNat_lt
  by_cases hd : d.toNat = 0
  · omega
  · -- the square of a greater candidate would not be a word
    have hmul := (Nat.le_div_iff_mul_le (Nat.pos_of_ne_zero hd)).1 hle
    have : ¬ 2 ^ 32 ≤ d.toNat := by
      intro hbig
      have := Nat.mul_le_mul hbig hbig
      omega
    omega

/-- Adding a small gap to a candidate below `2^32` stays within the word. -/
theorem toNat_add_of_small {d gap : UInt64} (hd : d.toNat < 2 ^ 32) (hgap : gap.toNat ≤ 4) :
    (d + gap).toNat = d.toNat + gap.toNat := by
  rw [UInt64.toNat_add]
  exact Nat.mod_eq_of_lt (by omega)

theorem toNat_gap_le {gap : UInt64} (h : gap = 2 ∨ gap = 4) :
    2 ≤ gap.toNat ∧ gap.toNat ≤ 4 := by
  rcases h with rfl | rfl <;> decide

/-! ## The least factor -/

/-- The first of the candidates `d`, `d + gap`, `d + 6`, … that divides `n`; the number
itself when their squares pass it first. -/
def firstDivisor (n d gap : UInt64) (hd : 5 ≤ d) (hgap : gap = 2 ∨ gap = 4) : UInt64 :=
  if h : d ≤ n / d then
    if n % d = 0 then d
    else
      firstDivisor n (d + gap) (6 - gap)
        (by
          have hsmall := toNat_lt_of_le_div h
          have hadd := toNat_add_of_small hsmall (toNat_gap_le hgap).2
          rw [UInt64.le_iff_toNat_le] at hd ⊢
          omega)
        (by rcases hgap with rfl | rfl <;> decide)
  else n
termination_by 2 ^ 33 - d.toNat
decreasing_by
  have hsmall := toNat_lt_of_le_div h
  have hadd := toNat_add_of_small hsmall (toNat_gap_le hgap).2
  have := (toNat_gap_le hgap).1
  omega

/-- The smallest factor above one of a number above one. -/
def leastFactor (n : UInt64) : UInt64 :=
  if n % 2 = 0 then 2
  else if n % 3 = 0 then 3
  else
    let root := floorRoot n.toNat
    -- a square and its root have the same prime factors
    if root * root = n.toNat then
      firstDivisor (.ofNat root) 5 2 (by decide) (by decide)
    else firstDivisor n 5 2 (by decide) (by decide)

theorem one_lt_firstDivisor {n d gap : UInt64} {hd : 5 ≤ d} {hgap : gap = 2 ∨ gap = 4}
    (h : 1 < n.toNat) : 1 < (firstDivisor n d gap hd hgap).toNat := by
  fun_induction firstDivisor n d gap hd hgap with
  | case1 d gap hd hgap hle hdvd =>
      have := UInt64.le_iff_toNat_le.1 hd
      have h5 : (5 : UInt64).toNat = 5 := rfl
      omega
  | case2 d gap hd hgap hle hdvd ih => exact ih
  | case3 d gap hd hgap hle => exact h

theorem one_lt_leastFactor {n : UInt64} (h : 1 < n.toNat) : 1 < (leastFactor n).toNat := by
  unfold leastFactor
  split
  · decide
  · split
    · decide
    · dsimp only
      split
      · next hsquare =>
          have hroot : 1 < floorRoot n.toNat := by
            rcases Nat.lt_or_ge 1 (floorRoot n.toNat) with hr | hr
            · exact hr
            · have := Nat.mul_le_mul hr hr
              omega
          have hlt : floorRoot n.toNat < 2 ^ 64 := by
            have hle : floorRoot n.toNat * 1 ≤ floorRoot n.toNat * floorRoot n.toNat :=
              Nat.mul_le_mul (Nat.le_refl _) (Nat.le_of_lt hroot)
            have := n.toNat_lt
            omega
          apply one_lt_firstDivisor
          rw [UInt64.toNat_ofNat_of_lt' hlt]
          exact hroot
      · exact one_lt_firstDivisor h

/-! ## Factorization -/

/-- The prime factors in increasing order, each as often as it divides. One has none; zero has
no factorization, and the list is empty for it as well. -/
def primeFactors (n : UInt64) : List UInt64 :=
  if 1 < n then leastFactor n :: primeFactors (n / leastFactor n) else []
termination_by n.toNat
decreasing_by
  next h =>
    have hn : 1 < n.toNat := UInt64.lt_iff_toNat_lt.1 h
    rw [UInt64.toNat_div]
    exact Nat.div_lt_self (by omega) (one_lt_leastFactor hn)

/-- Why a number has no factorization. -/
inductive FactorError
  | zero
  deriving DecidableEq, Repr

/-- The wording of the failure. -/
def FactorError.message : FactorError → String
  | .zero => "prime_factors called with 0; radicand must be >= 1"

/-- The prime factors of a number that has a factorization. -/
def factorization? (n : UInt64) : Except FactorError (List UInt64) :=
  if n = 0 then .error .zero else .ok (primeFactors n)

/-- Factors written as a product. -/
def productText (factors : List UInt64) : String :=
  joinWith " × " (factors.map toString)

/-! ## Primality -/

/-- One of the odd candidates `d`, `d + 2`, … whose squares do not pass `n` divides it. -/
def hasOddDivisor (n d : UInt64) (hd : 3 ≤ d) : Bool :=
  if h : d ≤ n / d then
    if n % d = 0 then true
    else
      hasOddDivisor n (d + 2)
        (by
          have hadd := @toNat_add_of_small d 2 (toNat_lt_of_le_div h) (by decide)
          rw [UInt64.le_iff_toNat_le] at hd ⊢
          omega)
  else false
termination_by 2 ^ 33 - d.toNat
decreasing_by
  have hsmall := toNat_lt_of_le_div h
  have hadd := @toNat_add_of_small d 2 hsmall (by decide)
  have h2 : (2 : UInt64).toNat = 2 := rfl
  omega

/-- Primality by trial division. -/
def isPrime (n : UInt64) : Bool :=
  if n ≤ 1 then false
  else if n ≤ 3 then true
  else if n % 2 = 0 then false
  else !hasOddDivisor n 3 (by decide)

end Stepwise
