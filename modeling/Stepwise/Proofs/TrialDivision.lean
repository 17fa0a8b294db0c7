import Mathlib.Tactic.NormNum.Prime
import Stepwise.Proofs.CheckedArithmetic
import Stepwise.Proofs.Factorization

set_option autoImplicit false

/-! # Trial division in rounds

Plain trial division: the twos are divided out of the number, then the odd candidates 3, 5, 7, and
so on, as long as a candidate does not exceed the quotient of what is left and itself; what is left
above one is the last factor. A `Trial` is where this process stands, and `Trial.round` is one
round of it, with a check in front of every operation on words.

The factors found are at all times those prime factors of the number that are not prime factors of
what is left (`LeavesOver`). From this follow the checks, the end of the process, and its result:
the list that `primeFactors` computes with fewer candidates.
-/

namespace Stepwise

/-! ## Rounds -/

/-- Where trial division stands: what is left of the number, and the factors found so far. -/
inductive Trial
  /-- Twos are divided out. -/
  | halving (rest : UInt64) (found : List UInt64)
  /-- The candidate is compared with the quotient of what is left and itself. -/
  | comparing (rest candidate : UInt64) (found : List UInt64)
  /-- The candidate is divided out. -/
  | dividing (rest candidate : UInt64) (found : List UInt64)

namespace Trial

/-- What a round leads to: one more round, or the list of factors. -/
inductive Next
  | again (t : Trial)
  | done (factors : List UInt64)

/-- One round of trial division. There is no result if an operation would leave the word or divide
by zero. -/
def round : Trial → Option Next
  | halving rest found => do
      let remainder ← checkedMod rest 2
      if remainder = 0 then
        let half ← checkedDiv rest 2
        return .again (halving half (found ++ [2]))
      else return .again (comparing rest 3 found)
  | comparing rest candidate found => do
      let quotient ← checkedDiv rest candidate
      if candidate ≤ quotient then return .again (dividing rest candidate found)
      else return .done (if 1 < rest then found ++ [rest] else found)
  | dividing rest candidate found => do
      let remainder ← checkedMod rest candidate
      if remainder = 0 then
        let quotient ← checkedDiv rest candidate
        return .again (dividing quotient candidate (found ++ [candidate]))
      else
        let next ← checkedAdd candidate 2
        return .again (comparing rest next found)

/-- Finitely many rounds, all of which pass their checks, lead to the list of factors. -/
inductive Yields : Trial → List UInt64 → Prop
  | done {t : Trial} {factors : List UInt64} (h : t.round = some (.done factors)) :
      Yields t factors
  | again {t next : Trial} {factors : List UInt64} (h : t.round = some (.again next))
      (hnext : Yields next factors) : Yields t factors

/-- The rounds lead to one list only. -/
theorem Yields.unique {t : Trial} {factors others : List UInt64} (h : t.Yields factors)
    (hothers : t.Yields others) : factors = others := by
  induction h with
  | done h =>
      cases hothers with
      | done h' => cases h.symm.trans h'; rfl
      | again h' _ => cases h.symm.trans h'
  | again h _ ih =>
      cases hothers with
      | done h' => cases h.symm.trans h'
      | again h' hnext => cases h.symm.trans h'; exact ih hnext

end Trial

/-! ## What is left -/

/-- The factors found and the prime factors of what is left are the prime factors of `n`. -/
structure LeavesOver (n : Nat) (found : List UInt64) (rest : UInt64) : Prop where
  pos : 0 < rest.toNat
  factors : found.map UInt64.toNat ++ rest.toNat.primeFactorsList = n.primeFactorsList

/-- An odd candidate that no prime factor of what is left is below. -/
structure IsCandidate (rest candidate : UInt64) : Prop where
  odd : candidate.toNat % 2 = 1
  three_le : 3 ≤ candidate.toNat
  le_prime : ∀ p, p.Prime → p ∣ rest.toNat → candidate.toNat ≤ p

theorem ne_zero_of_toNat_pos {d : UInt64} (h : 0 < d.toNat) : d ≠ 0 := by
  rintro rfl
  exact absurd h (by decide)

theorem IsCandidate.ne_zero {rest d : UInt64} (h : IsCandidate rest d) : d ≠ 0 := by
  have hthree := h.three_le
  exact ne_zero_of_toNat_pos (by omega)

section

variable {n : Nat} {rest d : UInt64} {found : List UInt64}

/-- A divisor that no prime factor is below is the least prime factor, and the next in the list. -/
theorem primeFactorsList_eq_cons {n d : Nat} (hn : 0 < n) (hd : 2 ≤ d) (hdvd : d ∣ n)
    (hle : ∀ p, p.Prime → p ∣ n → d ≤ p) :
    n.primeFactorsList = d :: (n / d).primeFactorsList := by
  have hdn : d ≤ n := Nat.le_of_dvd hn hdvd
  have hmin : n.minFac = d := by
    apply Nat.le_antisymm
    · exact Nat.minFac_le_of_dvd hd hdvd
    · exact hle _ (Nat.minFac_prime (by omega)) (Nat.minFac_dvd n)
  obtain ⟨m, rfl⟩ : ∃ m, n = m + 2 := ⟨n - 2, by omega⟩
  rw [Nat.primeFactorsList_add_two, hmin]

theorem LeavesOver.divide (h : LeavesOver n found rest) (hd : 2 ≤ d.toNat)
    (hdvd : d.toNat ∣ rest.toNat) (hle : ∀ p, p.Prime → p ∣ rest.toNat → d.toNat ≤ p) :
    LeavesOver n (found ++ [d]) (rest / d) ∧ (rest / d).toNat < rest.toNat := by
  have hquot : (rest / d).toNat = rest.toNat / d.toNat := UInt64.toNat_div rest d
  refine ⟨⟨?_, ?_⟩, ?_⟩
  · rw [hquot]
    exact Nat.div_pos (Nat.le_of_dvd h.pos hdvd) (by omega)
  · rw [← h.factors, primeFactorsList_eq_cons h.pos hd hdvd hle, hquot, List.map_append,
      List.append_assoc]
    rfl
  · rw [hquot]
    exact Nat.div_lt_self h.pos hd

/-- What is left when the candidate exceeds the quotient is one or the last prime factor. -/
theorem LeavesOver.last (h : LeavesOver n found rest) (hd : IsCandidate rest d)
    (hlt : rest.toNat / d.toNat < d.toNat) :
    (if 1 < rest then found ++ [rest] else found).map UInt64.toNat = n.primeFactorsList := by
  rw [← h.factors]
  split
  · next hone =>
      have hrest : 1 < rest.toNat := UInt64.lt_iff_toNat_lt.1 hone
      rw [Nat.primeFactorsList_prime (prime_of_above hrest hlt hd.le_prime), List.map_append]
      rfl
  · next hone =>
      have hrest : ¬ 1 < rest.toNat := fun hlt => hone (UInt64.lt_iff_toNat_lt.2 hlt)
      have hpos := h.pos
      rw [show rest.toNat = 1 by omega, Nat.primeFactorsList_one, List.append_nil]

theorem isCandidate_three (h : ¬ 2 ∣ rest.toNat) : IsCandidate rest 3 := by
  refine ⟨by decide, by decide, fun p hp hdvd => ?_⟩
  have htwo := hp.two_le
  have hne : p ≠ 2 := by
    rintro rfl
    exact h hdvd
  show 3 ≤ p
  omega

theorem IsCandidate.quotient (h : IsCandidate rest d) (hdvd : d.toNat ∣ rest.toNat) :
    IsCandidate (rest / d) d := by
  refine ⟨h.odd, h.three_le, fun p hp hpd => h.le_prime p hp ?_⟩
  rw [UInt64.toNat_div] at hpd
  exact hpd.trans (Nat.div_dvd_of_dvd hdvd)

/-- A candidate that does not divide may be passed, together with the even number behind it. -/
theorem IsCandidate.next {next : UInt64} (h : IsCandidate rest d) (hdvd : ¬ d.toNat ∣ rest.toNat)
    (hnext : next.toNat = d.toNat + 2) : IsCandidate rest next := by
  have hodd := h.odd
  have hthree := h.three_le
  refine ⟨by omega, by omega, fun p hp hpd => ?_⟩
  have hle := h.le_prime p hp hpd
  have hne : p ≠ d.toNat := by
    rintro rfl
    exact hdvd hpd
  have hprime := hp.eq_two_or_odd
  omega

end

/-! ## The process -/

namespace Trial

/-- What holds between the rounds. -/
def Invariant (n : Nat) : Trial → Prop
  | halving rest found => LeavesOver n found rest
  | comparing rest candidate found => LeavesOver n found rest ∧ IsCandidate rest candidate
  | dividing rest candidate found =>
      LeavesOver n found rest ∧ IsCandidate rest candidate ∧ candidate.toNat < 2 ^ 32

/-- A bound on the number of rounds that are left. -/
def roundsLeft : Trial → Nat
  | halving rest _ => rest.toNat + 2 ^ 34
  | comparing rest candidate _ => rest.toNat + 2 * (2 ^ 33 - candidate.toNat) + 1
  | dividing rest candidate _ => rest.toNat + 2 * (2 ^ 33 - candidate.toNat)

/-- The round passes its checks. It keeps the invariant with fewer rounds left, or it ends with the
prime factors. -/
def Advances (n : Nat) (t : Trial) : Prop :=
  (∃ next, t.round = some (.again next) ∧ next.Invariant n ∧ next.roundsLeft < t.roundsLeft) ∨
    ∃ factors, t.round = some (.done factors) ∧
      factors.map UInt64.toNat = n.primeFactorsList

section

variable {n : Nat} {rest d : UInt64} {found : List UInt64}

theorem advances_halving (h : (halving rest found).Invariant n) :
    (halving rest found).Advances n := by
  have hover : LeavesOver n found rest := h
  left
  by_cases hrem : rest % 2 = 0
  · have hdvd : 2 ∣ rest.toNat := toNat_mod_eq_zero_iff.1 hrem
    obtain ⟨hnext, hless⟩ := hover.divide (d := 2) (by decide) hdvd fun p hp _ => hp.two_le
    refine ⟨halving (rest / 2) (found ++ [2]), ?_, hnext, Nat.add_lt_add_right hless _⟩
    simp [round, checkedMod_eq_some, checkedDiv_eq_some, hrem]
  · have hcandidate : IsCandidate rest 3 :=
      isCandidate_three fun hdvd => hrem (toNat_mod_eq_zero_iff.2 hdvd)
    refine ⟨comparing rest 3 found, ?_, ⟨hover, hcandidate⟩, ?_⟩
    · simp [round, checkedMod_eq_some, hrem]
    · have hthree : (3 : UInt64).toNat = 3 := rfl
      simp only [roundsLeft, hthree]
      omega

theorem advances_comparing (h : (comparing rest d found).Invariant n) :
    (comparing rest d found).Advances n := by
  obtain ⟨hover, hcandidate⟩ := h
  by_cases hle : d ≤ rest / d
  · left
    refine ⟨dividing rest d found, ?_, ⟨hover, hcandidate, toNat_lt_of_le_div hle⟩,
      Nat.lt_succ_self _⟩
    simp [round, checkedDiv_eq_some hcandidate.ne_zero, hle]
  · right
    have hlt : rest.toNat / d.toNat < d.toNat := by
      rw [← UInt64.toNat_div]
      exact UInt64.lt_iff_toNat_lt.1 (UInt64.not_le.1 hle)
    refine ⟨if 1 < rest then found ++ [rest] else found, ?_, hover.last hcandidate hlt⟩
    simp [round, checkedDiv_eq_some hcandidate.ne_zero, hle]

theorem advances_dividing (h : (dividing rest d found).Invariant n) :
    (dividing rest d found).Advances n := by
  obtain ⟨hover, hcandidate, hsmall⟩ := h
  have hthree := hcandidate.three_le
  left
  by_cases hrem : rest % d = 0
  · have hdvd : d.toNat ∣ rest.toNat := toNat_mod_eq_zero_iff.1 hrem
    obtain ⟨hnext, hless⟩ := hover.divide (by omega) hdvd hcandidate.le_prime
    refine ⟨dividing (rest / d) d (found ++ [d]), ?_,
      ⟨hnext, hcandidate.quotient hdvd, hsmall⟩, Nat.add_lt_add_right hless _⟩
    simp [round, checkedMod_eq_some hcandidate.ne_zero, checkedDiv_eq_some hcandidate.ne_zero, hrem]
  · -- the candidate is below `2 ^ 32`, so the next one is a word
    have hadd : (d + 2).toNat = d.toNat + 2 := toNat_add_of_small hsmall (by decide)
    have hchecked : checkedAdd d 2 = some (d + 2) := checkedAdd_eq_some_iff.2 hadd
    have hdvd : ¬ d.toNat ∣ rest.toNat := fun hdvd => hrem (toNat_mod_eq_zero_iff.2 hdvd)
    refine ⟨comparing rest (d + 2) found, ?_, ⟨hover, hcandidate.next hdvd hadd⟩, ?_⟩
    · simp [round, checkedMod_eq_some hcandidate.ne_zero, hrem, hchecked]
    · simp only [roundsLeft, hadd]
      omega

/-- A round that starts with the invariant advances. -/
theorem Invariant.advances {t : Trial} (h : t.Invariant n) : t.Advances n := by
  cases t with
  | halving rest found => exact advances_halving h
  | comparing rest candidate found => exact advances_comparing h
  | dividing rest candidate found => exact advances_dividing h

/-- From a state with the invariant on, the rounds lead to the prime factors. -/
theorem Invariant.yields {t : Trial} (h : t.Invariant n) :
    ∃ factors, t.Yields factors ∧ factors.map UInt64.toNat = n.primeFactorsList := by
  induction hrounds : t.roundsLeft using Nat.strong_induction_on generalizing t with
  | _ rounds ih =>
      subst hrounds
      rcases h.advances with ⟨next, hround, hnext, hless⟩ | ⟨factors, hround, hfactors⟩
      · obtain ⟨factors, hyields, hfactors⟩ := ih _ hless hnext rfl
        exact ⟨factors, .again hround hyields, hfactors⟩
      · exact ⟨factors, .done hround, hfactors⟩

end

end Trial

theorem map_toNat_injective : Function.Injective (List.map UInt64.toNat) :=
  Function.Injective.list_map fun _ _ h => UInt64.toNat_inj.1 h

/-- Trial division yields the factors that are computed. -/
theorem yields_primeFactors {n : UInt64} (hn : 1 ≤ n) :
    (Trial.halving n []).Yields (primeFactors n) := by
  have hstart : (Trial.halving n []).Invariant n.toNat := ⟨UInt64.le_iff_toNat_le.1 hn, rfl⟩
  obtain ⟨factors, hyields, hfactors⟩ := hstart.yields
  rw [← map_toNat_primeFactors] at hfactors
  rwa [map_toNat_injective hfactors] at hyields

/-! ## The factorization -/

/-- The factors are prime, in non-decreasing order, and have the product `n`. -/
structure IsFactorization (n : Nat) (factors : List Nat) : Prop where
  prime : ∀ p ∈ factors, p.Prime
  sorted : factors.Pairwise (· ≤ ·)
  product : factors.prod = n

/-- A number has one factorization at most. -/
theorem IsFactorization.eq_primeFactorsList {n : Nat} {factors : List Nat}
    (h : IsFactorization n factors) : factors = n.primeFactorsList :=
  (Nat.primeFactorsList_unique h.product h.prime).eq_of_pairwise'
    h.sorted (Nat.primeFactorsList_sorted n).pairwise

theorem isFactorization_primeFactors {n : UInt64} (hn : 1 ≤ n) :
    IsFactorization n.toNat ((primeFactors n).map UInt64.toNat) := by
  refine ⟨fun p hp => ?_, ?_, prod_primeFactors hn⟩
  · obtain ⟨q, hq, rfl⟩ := List.mem_map.1 hp
    exact prime_of_mem_primeFactors hq
  · rw [map_toNat_primeFactors]
    exact (Nat.primeFactorsList_sorted _).pairwise

theorem primeFactors_eq_nil_iff {n : UInt64} (hn : 1 ≤ n) : primeFactors n = [] ↔ n = 1 := by
  have hpos : 1 ≤ n.toNat := UInt64.le_iff_toNat_le.1 hn
  rw [← List.map_eq_nil_iff (f := UInt64.toNat), map_toNat_primeFactors,
    Nat.primeFactorsList_eq_nil, ← UInt64.toNat_inj]
  show _ ↔ n.toNat = 1
  omega

/-- A positive word has a factorization. Trial division yields it without leaving the word or
dividing by zero, and it is the only one. It is empty for one alone. -/
theorem factorization_isFactorization (n : UInt64) (hn : 1 ≤ n) :
    ∃ factors, factorization? n = .ok factors ∧ (Trial.halving n []).Yields factors ∧
      IsFactorization n.toNat (factors.map UInt64.toNat) ∧
      (∀ others, IsFactorization n.toNat others → others = factors.map UInt64.toNat) ∧
      (factors = [] ↔ n = 1) := by
  have hne : n ≠ 0 := ne_zero_of_toNat_pos (UInt64.le_iff_toNat_le.1 hn)
  refine ⟨primeFactors n, by rw [factorization?, if_neg hne], yields_primeFactors hn,
    isFactorization_primeFactors hn, fun others h => ?_, primeFactors_eq_nil_iff hn⟩
  rw [map_toNat_primeFactors, h.eq_primeFactorsList]

/-- The greatest word has seven prime factors. -/
theorem factorization_isFactorization_greatest_word :
    (1 : UInt64) ≤ 18446744073709551615 ∧
      factorization? 18446744073709551615 = .ok [3, 5, 17, 257, 641, 65537, 6700417] ∧
      (Trial.halving 18446744073709551615 []).Yields [3, 5, 17, 257, 641, 65537, 6700417] := by
  refine ⟨by decide, ?_⟩
  obtain ⟨factors, hok, hyields, -, hunique, -⟩ :=
    factorization_isFactorization 18446744073709551615 (by decide)
  have hfactors : IsFactorization (18446744073709551615 : UInt64).toNat
      (([3, 5, 17, 257, 641, 65537, 6700417] : List UInt64).map UInt64.toNat) := by
    have hprime : ∀ p ∈ [3, 5, 17, 257, 641, 65537, 6700417], Nat.Prime p := by
      norm_num [List.forall_mem_cons]
    exact ⟨hprime, by decide, by decide⟩
  rw [map_toNat_injective (hunique _ hfactors)]
  exact ⟨hok, hyields⟩

end Stepwise
