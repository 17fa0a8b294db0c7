import Stepwise.Proofs.TrialDivision

set_option autoImplicit false

/-! # Testing for primes

The test looks for a divisor among 2 and the odd numbers, as long as a candidate does not exceed the
quotient of the number and itself. Trial division passes over the same candidates, so the invariant
is the one from there: no prime factor is below the candidate (`IsCandidate`). The test finds the
primes and nothing else (`isPrime_eq_true_iff`), no operation in it leaves the word or divides by
zero (`isPrime?_eq_some`), and it agrees with the factorization (`isPrime_decides`).
-/

namespace Stepwise

/-! ## The test with checks -/

/-- The search for an odd divisor with a check in front of every operation. There is no result if an
operation would leave the word or divide by zero. -/
def hasOddDivisor? (n d : UInt64) : Option Bool := do
  let quotient ← checkedDiv n d
  if d ≤ quotient then
    let remainder ← checkedMod n d
    if remainder = 0 then return true
    else
      match h : checkedAdd d 2 with
      | some next =>
          have : 2 ^ 64 - next.toNat < 2 ^ 64 - d.toNat := by
            have hnext : next.toNat = d.toNat + 2 := checkedAdd_eq_some_iff.1 h
            have hword := next.toNat_lt
            omega
          hasOddDivisor? n next
      | none => none
  else return false
termination_by 2 ^ 64 - d.toNat

/-- The test for primes with a check in front of every operation. -/
def isPrime? (n : UInt64) : Option Bool :=
  if n ≤ 1 then some false
  else if n ≤ 3 then some true
  else do
    let remainder ← checkedMod n 2
    if remainder = 0 then return false
    else return !(← hasOddDivisor? n 3)

theorem hasOddDivisor?_eq_some {n d : UInt64} (hd : 3 ≤ d) :
    hasOddDivisor? n d = some (hasOddDivisor n d hd) := by
  have hne {d : UInt64} (hd : 3 ≤ d) : d ≠ 0 := by
    rintro rfl
    exact absurd hd (by decide)
  fun_induction hasOddDivisor n d hd with
  | case1 d hd hle hdvd =>
      rw [hasOddDivisor?]
      simp [checkedDiv_eq_some (hne hd), checkedMod_eq_some (hne hd), hle, hdvd]
  | case2 d hd hle hdvd ih =>
      -- the candidate is below `2 ^ 32`, so the next one is a word
      have hadd : checkedAdd d 2 = some (d + 2) :=
        checkedAdd_eq_some_iff.2 (toNat_add_of_small (toNat_lt_of_le_div hle) (by decide))
      rw [hasOddDivisor?]
      simp only [checkedDiv_eq_some (hne hd), checkedMod_eq_some (hne hd), Option.bind_eq_bind,
        Option.bind_some, if_pos hle, if_neg hdvd]
      split
      · next next hnext =>
          rw [hadd] at hnext
          rw [← Option.some.inj hnext, ih]
      · next hnone =>
          rw [hadd] at hnone
          cases hnone
  | case3 d hd hle =>
      rw [hasOddDivisor?]
      simp [checkedDiv_eq_some (hne hd), hle]

/-- The test passes all its checks. -/
theorem isPrime?_eq_some (n : UInt64) : isPrime? n = some (isPrime n) := by
  unfold isPrime? isPrime
  split
  · rfl
  · split
    · rfl
    · simp only [checkedMod_eq_some (show (2 : UInt64) ≠ 0 by decide), Option.bind_eq_bind,
        Option.bind_some, hasOddDivisor?_eq_some (show (3 : UInt64) ≤ 3 by decide)]
      split <;> rfl

/-! ## What the test finds -/

/-- No odd candidate divides a prime number, and one divides every other odd number. -/
theorem hasOddDivisor_eq_false_iff {n d : UInt64} {hd : 3 ≤ d} (hn : 1 < n.toNat)
    (h : IsCandidate n d) : hasOddDivisor n d hd = false ↔ n.toNat.Prime := by
  fun_induction hasOddDivisor n d hd with
  | case1 d hd hle hdvd =>
      have hthree := h.three_le
      have hdiv : d.toNat ≤ n.toNat / d.toNat := by
        rw [← UInt64.toNat_div]
        exact UInt64.le_iff_toNat_le.1 hle
      have hlt : d.toNat < n.toNat :=
        hdiv.trans_lt (Nat.div_lt_self (by omega) (by omega))
      refine iff_of_false (by decide) ?_
      exact Nat.not_prime_of_dvd_of_lt (toNat_mod_eq_zero_iff.1 hdvd) (by omega) hlt
  | case2 d hd hle hdvd ih =>
      have hadd : (d + 2).toNat = d.toNat + 2 :=
        toNat_add_of_small (toNat_lt_of_le_div hle) (by decide)
      exact ih (h.next (fun hdiv => hdvd (toNat_mod_eq_zero_iff.2 hdiv)) hadd)
  | case3 d hd hle =>
      have hlt : n.toNat / d.toNat < d.toNat := by
        rw [← UInt64.toNat_div]
        exact UInt64.lt_iff_toNat_lt.1 (UInt64.not_le.1 hle)
      exact iff_of_true rfl (prime_of_above hn hlt h.le_prime)

/-- The test finds the primes. -/
theorem isPrime_eq_true_iff (n : UInt64) : isPrime n = true ↔ n.toNat.Prime := by
  unfold isPrime
  split
  · next hone =>
      have hle : n.toNat ≤ 1 := UInt64.le_iff_toNat_le.1 hone
      exact iff_of_false (by decide) fun hprime => absurd hprime.two_le (by omega)
  · next hone =>
      have hlt : 1 < n.toNat := UInt64.lt_iff_toNat_lt.1 (UInt64.not_le.1 hone)
      split
      · next hthree =>
          have hle : n.toNat ≤ 3 := UInt64.le_iff_toNat_le.1 hthree
          have hcases : n.toNat = 2 ∨ n.toNat = 3 := by omega
          refine iff_of_true rfl ?_
          rcases hcases with htwo | hthree
          · rw [htwo]
            exact Nat.prime_two
          · rw [hthree]
            exact Nat.prime_three
      · next hthree =>
          have hgt : 3 < n.toNat := UInt64.lt_iff_toNat_lt.1 (UInt64.not_le.1 hthree)
          split
          · next heven =>
              refine iff_of_false (by decide) ?_
              exact Nat.not_prime_of_dvd_of_lt (toNat_mod_eq_zero_iff.1 heven) (by decide)
                (Nat.lt_of_succ_lt hgt)
          · next hodd =>
              have hcandidate : IsCandidate n 3 :=
                isCandidate_three fun hdvd => hodd (toNat_mod_eq_zero_iff.2 hdvd)
              rw [Bool.not_eq_true', hasOddDivisor_eq_false_iff hlt hcandidate]

/-! ## Agreement with the factorization -/

theorem primeFactors_eq_singleton_iff {n : UInt64} : primeFactors n = [n] ↔ n.toNat.Prime := by
  rw [← map_toNat_injective.eq_iff, map_toNat_primeFactors, List.map_singleton]
  constructor
  · intro hfactors
    exact Nat.prime_of_mem_primeFactorsList (hfactors ▸ List.mem_singleton_self _)
  · exact Nat.primeFactorsList_prime

theorem factorization?_eq_singleton_iff {n : UInt64} :
    factorization? n = .ok [n] ↔ n.toNat.Prime := by
  unfold factorization?
  split
  · next hzero =>
      subst hzero
      exact iff_of_false (by simp) Nat.not_prime_zero
  · rw [Except.ok.injEq, primeFactors_eq_singleton_iff]

/-- The test of a word passes all its checks and tells whether the word is prime. It agrees with the
factorization, and for a positive word with the rounds of trial division: the word is found prime
exactly if it is its own only factor. -/
theorem isPrime_decides (n : UInt64) :
    isPrime? n = some (isPrime n) ∧
    (isPrime n = true ↔ n.toNat.Prime) ∧
    (isPrime n = true ↔ factorization? n = .ok [n]) ∧
    (1 ≤ n → (isPrime n = true ↔ (Trial.halving n []).Yields [n])) := by
  refine ⟨isPrime?_eq_some n, isPrime_eq_true_iff n, ?_, fun hn => ?_⟩
  · rw [isPrime_eq_true_iff, factorization?_eq_singleton_iff]
  · rw [isPrime_eq_true_iff, ← primeFactors_eq_singleton_iff]
    have hyields := yields_primeFactors hn
    constructor
    · intro hfactors
      rwa [hfactors] at hyields
    · exact fun h => hyields.unique h

/-- The square of the greatest prime below `2 ^ 32`. The search ends at its only divisor, the last
candidate that it reaches. -/
theorem isPrime_decides_square :
    (1 : UInt64) ≤ 18446744030759878681 ∧ isPrime 18446744030759878681 = false ∧
      factorization? 18446744030759878681 ≠ .ok [18446744030759878681] ∧
      ¬ (Trial.halving 18446744030759878681 []).Yields [18446744030759878681] := by
  have hone : (1 : UInt64) ≤ 18446744030759878681 := by decide
  obtain ⟨-, hprime, hfactorization, hyields⟩ := isPrime_decides 18446744030759878681
  have hsquare : (18446744030759878681 : UInt64).toNat = 4294967291 * 4294967291 := by decide
  have hnot : ¬ isPrime 18446744030759878681 = true := by
    rw [hprime, hsquare]
    exact Nat.not_prime_mul (by decide) (by decide)
  exact ⟨hone, Bool.eq_false_iff.2 hnot, fun h => hnot (hfactorization.2 h),
    fun h => hnot ((hyields hone).2 h)⟩

end Stepwise
