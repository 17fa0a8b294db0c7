import Mathlib.Data.Nat.Factors
import Stepwise.Prime

set_option autoImplicit false

/-! # Trial division finds the prime factors

The factors of a word are the prime factors of its value, in increasing order
(`map_toNat_primeFactors`). The invariant of the search is that no prime below the candidate
divides the number. A candidate is one less or one more than a multiple of 6, so a step to the
next one passes multiples of 2 and 3 only.
-/

namespace Stepwise

theorem toNat_mod_eq_zero_iff {n d : UInt64} : n % d = 0 ↔ d.toNat ∣ n.toNat := by
  rw [← UInt64.toNat_inj, UInt64.toNat_mod]
  exact (Nat.dvd_iff_mod_eq_zero).symm

/-! ## The search -/

/-- The candidate and the gap behind it are in step with the multiples of 6. -/
def InPhase (d gap : UInt64) : Prop :=
  (gap = 2 ∧ d.toNat % 6 = 5) ∨ (gap = 4 ∧ d.toNat % 6 = 1)

/-- The prime factors of the number are all from the candidate on, and neither 2 nor 3 is
among them. -/
structure Searched (n : Nat) (d : Nat) : Prop where
  odd : ¬ 2 ∣ n
  noThree : ¬ 3 ∣ n
  above : ∀ p, p.Prime → p ∣ n → d ≤ p

/-- A candidate that does not divide may be passed, together with the gap behind it. -/
theorem Searched.next {n : Nat} {d gap : UInt64} (h : Searched n d.toNat)
    (hphase : InPhase d gap) (hsmall : d.toNat < 2 ^ 32) (hdvd : ¬ d.toNat ∣ n) :
    Searched n (d + gap).toNat ∧ InPhase (d + gap) (6 - gap) := by
  have hgap : gap.toNat ≤ 4 := by
    rcases hphase with ⟨rfl, -⟩ | ⟨rfl, -⟩ <;> decide
  have hadd := toNat_add_of_small hsmall hgap
  constructor
  · refine ⟨h.odd, h.noThree, fun p hp hpn => ?_⟩
    have hle : d.toNat ≤ p := h.above p hp hpn
    have hne : p ≠ d.toNat := by
      rintro rfl
      exact hdvd hpn
    have h2 : p % 2 ≠ 0 := fun h2 => h.odd (Nat.dvd_trans (Nat.dvd_of_mod_eq_zero h2) hpn)
    have h3 : p % 3 ≠ 0 := fun h3 => h.noThree (Nat.dvd_trans (Nat.dvd_of_mod_eq_zero h3) hpn)
    rw [hadd]
    -- the numbers in the gap are multiples of 2 or 3
    rcases hphase with ⟨rfl, hd⟩ | ⟨rfl, hd⟩
    · have : (2 : UInt64).toNat = 2 := rfl
      omega
    · have : (4 : UInt64).toNat = 4 := rfl
      omega
  · rcases hphase with ⟨rfl, hd⟩ | ⟨rfl, hd⟩
    · have : (2 : UInt64).toNat = 2 := rfl
      exact .inr ⟨by decide, by omega⟩
    · have : (4 : UInt64).toNat = 4 := rfl
      exact .inl ⟨by decide, by omega⟩

/-- A number whose prime factors are all above its root is prime. -/
theorem prime_of_above {n d : Nat} (hn : 1 < n) (hd : n / d < d)
    (habove : ∀ p, p.Prime → p ∣ n → d ≤ p) : n.Prime := by
  by_contra hprime
  have hsq : n.minFac ^ 2 ≤ n := Nat.minFac_sq_le_self (by omega) hprime
  have hle : d ≤ n.minFac := habove _ (Nat.minFac_prime (by omega)) (Nat.minFac_dvd n)
  have hmul : d * d ≤ n := by
    calc d * d ≤ n.minFac * n.minFac := Nat.mul_le_mul hle hle
      _ = n.minFac ^ 2 := (pow_two _).symm
      _ ≤ n := hsq
  have hpos : 0 < d := Nat.lt_of_le_of_lt (Nat.zero_le _) hd
  have hdiv : d ≤ n / d := (Nat.le_div_iff_mul_le hpos).2 hmul
  omega

theorem toNat_firstDivisor {n d gap : UInt64} {hd : 5 ≤ d} {hgap : gap = 2 ∨ gap = 4}
    (hn : 1 < n.toNat) (hphase : InPhase d gap) (h : Searched n.toNat d.toNat) :
    (firstDivisor n d gap hd hgap).toNat = n.toNat.minFac := by
  fun_induction firstDivisor n d gap hd hgap with
  | case1 d gap hd hgap hle hdvd =>
      have hd5 : 5 ≤ d.toNat := UInt64.le_iff_toNat_le.1 hd
      have hmin : n.toNat.minFac ≤ d.toNat :=
        Nat.minFac_le_of_dvd (by omega) (toNat_mod_eq_zero_iff.1 hdvd)
      have habove : d.toNat ≤ n.toNat.minFac :=
        h.above _ (Nat.minFac_prime (by omega)) (Nat.minFac_dvd _)
      omega
  | case2 d gap hd hgap hle hdvd ih =>
      have hnext := h.next hphase (toNat_lt_of_le_div hle)
        (fun hdiv => hdvd (toNat_mod_eq_zero_iff.2 hdiv))
      exact ih hnext.2 hnext.1
  | case3 d gap hd hgap hle =>
      have hlt : n.toNat / d.toNat < d.toNat := by
        rw [← UInt64.toNat_div]
        exact UInt64.lt_iff_toNat_lt.1 (UInt64.not_le.1 hle)
      exact (Nat.Prime.minFac_eq (prime_of_above hn hlt h.above)).symm

/-- The search may start at 5 for a number that neither 2 nor 3 divides. -/
theorem searched_five {n : Nat} (h2 : ¬ 2 ∣ n) (h3 : ¬ 3 ∣ n) : Searched n 5 := by
  refine ⟨h2, h3, fun p hp hpn => ?_⟩
  by_contra hlt
  have hp2 := hp.two_le
  have hcases : p = 2 ∨ p = 3 ∨ p = 4 := by omega
  rcases hcases with rfl | rfl | rfl
  · exact h2 hpn
  · exact h3 hpn
  · exact h2 (Nat.dvd_trans (by decide) hpn)

theorem minFac_mul_self {r : Nat} (hr : 1 < r) : (r * r).minFac = r.minFac := by
  apply Nat.le_antisymm
  · exact Nat.minFac_le_of_dvd (Nat.minFac_prime (by omega)).two_le
      (Dvd.dvd.mul_right (Nat.minFac_dvd r) r)
  · have hlt : 2 * 2 ≤ r * r := Nat.mul_le_mul hr hr
    have hne : r * r ≠ 1 := by omega
    have hprime := Nat.minFac_prime hne
    have hdvd : (r * r).minFac ∣ r := by
      rcases hprime.dvd_mul.1 (Nat.minFac_dvd (r * r)) with h | h <;> exact h
    exact Nat.minFac_le_of_dvd hprime.two_le hdvd

/-- The least factor of a square is found as the least factor of its root. -/
theorem toNat_firstDivisor_root {n : UInt64} {root : Nat} (hn : 1 < n.toNat)
    (h2 : ¬ 2 ∣ n.toNat) (h3 : ¬ 3 ∣ n.toNat) (hsquare : root * root = n.toNat) :
    (firstDivisor (.ofNat root) 5 2 (by decide) (by decide)).toNat = n.toNat.minFac := by
  have hroot : 1 < root := by
    rcases Nat.lt_or_ge 1 root with hr | hr
    · exact hr
    · have := Nat.mul_le_mul hr hr
      omega
  have hword : (UInt64.ofNat root).toNat = root := by
    have hle : root * 1 ≤ root * root := Nat.mul_le_mul_left root hroot.le
    have hlt : root < 2 ^ 64 := by
      have := n.toNat_lt
      omega
    exact UInt64.toNat_ofNat_of_lt' hlt
  have hsearched : Searched (UInt64.ofNat root).toNat 5 := by
    rw [hword]
    refine searched_five (fun h => h2 ?_) (fun h => h3 ?_)
    · rw [← hsquare]; exact h.mul_right root
    · rw [← hsquare]; exact h.mul_right root
  rw [toNat_firstDivisor (by omega) (.inl ⟨rfl, by decide⟩) hsearched, hword, ← hsquare,
    minFac_mul_self hroot]

theorem toNat_leastFactor {n : UInt64} (hn : 1 < n.toNat) :
    (leastFactor n).toNat = n.toNat.minFac := by
  unfold leastFactor
  split
  · next h2 => exact ((Nat.minFac_eq_two_iff _).2 (toNat_mod_eq_zero_iff.1 h2)).symm
  · next h2 =>
      have h2 : ¬ 2 ∣ n.toNat := fun h => h2 (toNat_mod_eq_zero_iff.2 h)
      split
      · next h3 =>
          have h3 : 3 ∣ n.toNat := toNat_mod_eq_zero_iff.1 h3
          have hle : n.toNat.minFac ≤ 3 := Nat.minFac_le_of_dvd (by decide) h3
          have hge := (Nat.minFac_prime (n := n.toNat) (by omega)).two_le
          have hne : n.toNat.minFac ≠ 2 := fun h => h2 ((Nat.minFac_eq_two_iff _).1 h)
          have : (3 : UInt64).toNat = 3 := rfl
          omega
      · next h3 =>
          have h3 : ¬ 3 ∣ n.toNat := fun h => h3 (toNat_mod_eq_zero_iff.2 h)
          dsimp only
          split
          · next hsquare => exact toNat_firstDivisor_root hn h2 h3 hsquare
          · exact toNat_firstDivisor hn (.inl ⟨rfl, by decide⟩) (searched_five h2 h3)

/-! ## Factorization -/

/-- The factors of a word are the prime factors of its value. -/
theorem map_toNat_primeFactors (n : UInt64) :
    (primeFactors n).map UInt64.toNat = n.toNat.primeFactorsList := by
  fun_induction primeFactors n with
  | case1 n h ih =>
      have hn : 1 < n.toNat := UInt64.lt_iff_toNat_lt.1 h
      obtain ⟨m, hm⟩ : ∃ m, n.toNat = m + 2 := ⟨n.toNat - 2, by omega⟩
      rw [List.map_cons, ih, UInt64.toNat_div, toNat_leastFactor hn, hm,
        Nat.primeFactorsList_add_two]
  | case2 n h =>
      have hn : n.toNat ≤ 1 := by
        by_contra hlt
        exact h (UInt64.lt_iff_toNat_lt.2 (by simpa using hlt))
      have hcases : n.toNat = 0 ∨ n.toNat = 1 := by omega
      rcases hcases with h0 | h1
      · simp [h0]
      · simp [h1]

theorem prime_of_mem_primeFactors {n p : UInt64} (h : p ∈ primeFactors n) : p.toNat.Prime := by
  have hmem : p.toNat ∈ (primeFactors n).map UInt64.toNat := List.mem_map_of_mem h
  rw [map_toNat_primeFactors] at hmem
  exact Nat.prime_of_mem_primeFactorsList hmem

theorem prod_primeFactors {n : UInt64} (h : 1 ≤ n) :
    ((primeFactors n).map UInt64.toNat).prod = n.toNat := by
  have hn : 1 ≤ n.toNat := UInt64.le_iff_toNat_le.1 h
  rw [map_toNat_primeFactors, Nat.prod_primeFactorsList (by omega)]

end Stepwise
