import Mathlib.Data.Nat.Factorization.Basic
import Stepwise.Proofs.Simplification

set_option autoImplicit false

/-! # The pairs of a number

The simplification of a root lists the primes of which pairs go outside. These are the primes whose
square divides the number, in increasing order, and each of them stands there with the number of its
pairs (`listsPairs_simplify`). A prime in this list is one that is counted at least twice
(`mem_pairs_simplify_iff`), and its count is its multiplicity in the number. The product of what the
pairs contribute goes outside, and the product of the primes of odd multiplicity stays inside
(`simplification_extractsPairsOf`).
-/

namespace Stepwise

/-- The entries are the primes whose square divides the number, in increasing order, each with as
many pairs as there are. -/
structure ListsPairs (n : Nat) (entries : List (Nat × Nat)) : Prop where
  increasing : (entries.map Prod.fst).Pairwise (· < ·)
  primes : ∀ p, p ∈ entries.map Prod.fst ↔ p.Prime ∧ p ^ 2 ∣ n
  pairs : ∀ entry ∈ entries, entry.1 ^ (2 * entry.2) ∣ n ∧ ¬ entry.1 ^ (2 * entry.2 + 2) ∣ n

namespace PairExtraction

/-- The prime and the number of its pairs. -/
def entry (pair : PairExtraction) : Nat × Nat := (pair.prime.toNat, pair.pairs)

/-- The pairs of a prime that is counted at least twice. -/
def ofRepeated (entry : UInt64 × Nat) : PairExtraction :=
  ⟨entry.1, entry.2 / 2, entry.1 ^ (entry.2 / 2)⟩

end PairExtraction

theorem filterMap_ofCount (counts : List (UInt64 × Nat)) :
    counts.filterMap PairExtraction.ofCount =
      (counts.filter fun entry => 2 ≤ entry.2).map PairExtraction.ofRepeated := by
  induction counts with
  | nil => rfl
  | cons entry counts ih =>
      by_cases htwo : 2 ≤ entry.2
      · have hpairs : entry.2 / 2 ≠ 0 := by omega
        rw [List.filter_cons_of_pos (by simpa using htwo), List.map_cons, ← ih]
        exact List.filterMap_cons_some (by rw [PairExtraction.ofCount, if_neg hpairs]; rfl)
      · have hpairs : entry.2 / 2 = 0 := by omega
        rw [List.filter_cons_of_neg (by simpa using htwo), ← ih]
        exact List.filterMap_cons_none (by rw [PairExtraction.ofCount, if_pos hpairs])

/-! ## Multiplicities -/

theorem count_primeFactors (n p : UInt64) :
    (primeFactors n).count p = n.toNat.factorization p.toNat := by
  rw [← Nat.primeFactorsList_count_eq, ← map_toNat_primeFactors]
  exact (List.count_map_of_injective _ _ (fun _ _ h => UInt64.toNat_inj.1 h) p).symm

theorem mem_tally_primeFactors_iff {n p : UInt64} {count : Nat} :
    (p, count) ∈ tally (primeFactors n) ↔ 0 < count ∧ count = n.toNat.factorization p.toNat := by
  rw [(tallies_tally (primeFactors n)).exact, ← count_primeFactors, ← List.count_pos_iff]
  constructor
  · rintro ⟨hpos, rfl⟩
    exact ⟨hpos, rfl⟩
  · rintro ⟨hpos, rfl⟩
    exact ⟨hpos, rfl⟩

/-- The pairs are those of the primes that divide the number at least twice. -/
theorem mem_pairs_simplify_iff {n : UInt64} {pair : PairExtraction} :
    pair ∈ (simplify n).pairs ↔ 2 ≤ n.toNat.factorization pair.prime.toNat ∧
      pair = .ofRepeated (pair.prime, n.toNat.factorization pair.prime.toNat) := by
  show pair ∈ (tally (primeFactors n)).filterMap PairExtraction.ofCount ↔ _
  rw [filterMap_ofCount, List.mem_map]
  constructor
  · rintro ⟨⟨p, count⟩, hentry, rfl⟩
    obtain ⟨hmem, htwo⟩ := List.mem_filter.1 hentry
    obtain ⟨-, rfl⟩ := mem_tally_primeFactors_iff.1 hmem
    exact ⟨of_decide_eq_true htwo, rfl⟩
  · rintro ⟨htwo, hpair⟩
    refine ⟨_, List.mem_filter.2 ⟨mem_tally_primeFactors_iff.2 ⟨?_, rfl⟩, decide_eq_true htwo⟩,
      hpair.symm⟩
    omega

theorem prime_of_mem_pairs {n : UInt64} {pair : PairExtraction} (h : pair ∈ (simplify n).pairs) :
    pair.prime.toNat.Prime := by
  obtain ⟨htwo, -⟩ := mem_pairs_simplify_iff.1 h
  by_contra hprime
  rw [Nat.factorization_eq_zero_of_not_prime _ hprime] at htwo
  omega

section

variable {n : UInt64} (hn : 1 ≤ n)
include hn

theorem toNat_ne_zero : n.toNat ≠ 0 := Nat.one_le_iff_ne_zero.1 (UInt64.le_iff_toNat_le.1 hn)

/-- All pairs of a prime divide the number, and one pair more does not. -/
theorem pow_dvd_of_mem_pairs {pair : PairExtraction} (h : pair ∈ (simplify n).pairs) :
    pair.prime.toNat ^ (2 * pair.pairs) ∣ n.toNat ∧
      ¬ pair.prime.toNat ^ (2 * pair.pairs + 2) ∣ n.toNat := by
  have hprime := prime_of_mem_pairs h
  have hpairs : pair.pairs = n.toNat.factorization pair.prime.toNat / 2 :=
    congrArg PairExtraction.pairs (mem_pairs_simplify_iff.1 h).2
  rw [hprime.pow_dvd_iff_le_factorization (toNat_ne_zero hn),
    hprime.pow_dvd_iff_le_factorization (toNat_ne_zero hn)]
  omega

/-- What the pairs of a prime contribute does not leave the word. -/
theorem toNat_contribution {pair : PairExtraction} (h : pair ∈ (simplify n).pairs) :
    pair.contribution.toNat = pair.prime.toNat ^ pair.pairs := by
  have hpower : pair.contribution = pair.prime ^ pair.pairs := by
    obtain ⟨-, hpair⟩ := mem_pairs_simplify_iff.1 h
    rw [hpair]
    rfl
  have hdvd : pair.prime.toNat ^ pair.pairs ∣ n.toNat :=
    (pow_dvd_pow _ (by omega)).trans (pow_dvd_of_mem_pairs hn h).1
  have hle := Nat.le_of_dvd (Nat.pos_of_ne_zero (toNat_ne_zero hn)) hdvd
  rw [hpower, toNat_pow, Nat.mod_eq_of_lt (hle.trans_lt n.toNat_lt)]

/-! ## The list -/

theorem mem_primes_iff {p : Nat} :
    p ∈ ((simplify n).pairs.map PairExtraction.entry).map Prod.fst ↔ p.Prime ∧ p ^ 2 ∣ n.toNat := by
  rw [List.map_map, List.mem_map]
  constructor
  · rintro ⟨pair, hpair, rfl⟩
    have hprime := prime_of_mem_pairs hpair
    have htwo := (mem_pairs_simplify_iff.1 hpair).1
    exact ⟨hprime, (hprime.pow_dvd_iff_le_factorization (toNat_ne_zero hn)).2 htwo⟩
  · rintro ⟨hprime, hdvd⟩
    have hle : p ≤ n.toNat := Nat.le_of_dvd (Nat.pos_of_ne_zero (toNat_ne_zero hn))
      ((dvd_pow_self p two_ne_zero).trans hdvd)
    obtain ⟨word, rfl⟩ := exists_toNat_eq hle
    have htwo := (hprime.pow_dvd_iff_le_factorization (toNat_ne_zero hn)).1 hdvd
    exact ⟨.ofRepeated (word, n.toNat.factorization word.toNat),
      mem_pairs_simplify_iff.2 ⟨htwo, rfl⟩, rfl⟩

omit hn in
/-- The primes stand in the order of the prime factors, and none of them twice. -/
theorem pairwise_primes (n : UInt64) :
    (((simplify n).pairs.map PairExtraction.entry).map Prod.fst).Pairwise (· < ·) := by
  have hkeys : ((simplify n).pairs.map PairExtraction.entry).map Prod.fst =
      ((((tally (primeFactors n)).filter fun entry => 2 ≤ entry.2).map Prod.fst)).map
        UInt64.toNat := by
    show (((tally (primeFactors n)).filterMap PairExtraction.ofCount).map _).map _ = _
    rw [filterMap_ofCount, List.map_map, List.map_map, List.map_map]
    rfl
  have hsublist : List.Sublist
      (((tally (primeFactors n)).filter fun entry => 2 ≤ entry.2).map Prod.fst)
      ((tally (primeFactors n)).map Prod.fst) := List.filter_sublist.map Prod.fst
  have hsorted : (n.toNat.primeFactorsList).Pairwise (· ≤ ·) :=
    (Nat.primeFactorsList_sorted _).pairwise
  rw [← map_toNat_primeFactors] at hsorted
  have hle := hsorted.sublist ((hsublist.trans (sublist_map_fst_tally _)).map UInt64.toNat)
  have hdistinct := List.Nodup.map (fun _ _ h => UInt64.toNat_inj.1 h)
    ((tallies_tally (primeFactors n)).distinct.sublist hsublist)
  rw [hkeys]
  exact (hle.and hdistinct).imp fun h => lt_of_le_of_ne h.1 h.2

/-- The simplification lists the pairs of the number. -/
theorem listsPairs_simplify :
    ListsPairs n.toNat ((simplify n).pairs.map PairExtraction.entry) where
  increasing := pairwise_primes n
  primes _ := mem_primes_iff hn
  pairs := List.forall_mem_map.2 fun _ hpair => pow_dvd_of_mem_pairs hn hpair

omit hn in
theorem outsideOf_eq_prod (counts : List (UInt64 × Nat)) :
    outsideOf counts = ((counts.filter fun entry => 2 ≤ entry.2).map fun entry =>
      entry.1.toNat ^ (entry.2 / 2)).prod := by
  induction counts with
  | nil => rfl
  | cons entry counts ih =>
      rw [outsideOf_cons, ih]
      by_cases htwo : 2 ≤ entry.2
      · simp [htwo]
      · have hpairs : entry.2 / 2 = 0 := by omega
        simp [htwo, hpairs]

/-- What stands outside the root is the product of what the pairs contribute. -/
theorem prod_pairs_simplify :
    (((simplify n).pairs.map PairExtraction.entry).map fun entry => entry.1 ^ entry.2).prod =
      (simplify n).outside.toNat := by
  rw [(toNat_simplify hn).1, outsideOf_eq_prod]
  show ((((tally (primeFactors n)).filterMap PairExtraction.ofCount).map _).map _).prod = _
  rw [filterMap_ofCount, List.map_map, List.map_map]
  rfl

end

/-! ## The simplification -/

theorem mem_unpairedPrimes_iff {n : UInt64} {p : Nat} :
    p ∈ unpairedPrimes n ↔ p ∈ n.toNat.primeFactors ∧ Odd (n.toNat.factorization p) := by
  rw [unpairedPrimes, List.map_map, List.mem_map]
  constructor
  · rintro ⟨⟨word, count⟩, hentry, rfl⟩
    obtain ⟨hcounted, hodd⟩ := List.mem_filter.1 hentry
    obtain ⟨hpos, rfl⟩ := mem_tally_primeFactors_iff.1 hcounted
    refine ⟨?_, Nat.odd_iff.2 (of_decide_eq_true hodd)⟩
    rw [← Nat.support_factorization, Finsupp.mem_support_iff]
    exact Nat.pos_iff_ne_zero.1 hpos
  · rintro ⟨hprime, hodd⟩
    obtain ⟨word, rfl⟩ := exists_toNat_eq (Nat.le_of_mem_primeFactors hprime)
    refine ⟨(word, n.toNat.factorization word.toNat), List.mem_filter.2 ⟨?_, ?_⟩, rfl⟩
    · exact mem_tally_primeFactors_iff.2 ⟨hodd.pos, rfl⟩
    · exact decide_eq_true (Nat.odd_iff.1 hodd)

/-- What stands inside the root is the product of the primes of odd multiplicity. -/
theorem insideOf_tally_eq_prod (n : UInt64) :
    insideOf (tally (primeFactors n)) =
      ∏ p ∈ n.toNat.primeFactors with Odd (n.toNat.factorization p), p := by
  calc insideOf (tally (primeFactors n)) = (unpairedPrimes n).prod := insideOf_eq_prod _
    _ = ∏ p ∈ (unpairedPrimes n).toFinset, p := by
        rw [List.prod_toFinset _ (nodup_unpairedPrimes n), List.map_id']
    _ = ∏ p ∈ n.toNat.primeFactors with Odd (n.toNat.factorization p), p := by
        congr 1
        ext p
        rw [List.mem_toFinset, mem_unpairedPrimes_iff, Finset.mem_filter]

/-- The simplification extracts the pairs of `n`: its pairs are those of the primes whose square
divides the number, in increasing order, the product of what they contribute goes outside, and the
primes of odd multiplicity stay inside. -/
structure Simplification.ExtractsPairsOf (s : Simplification) (n : Nat) : Prop where
  increasing : (s.pairs.map fun pair => pair.prime.toNat).Pairwise (· < ·)
  primes : ∀ p, p ∈ (s.pairs.map fun pair => pair.prime.toNat) ↔ p.Prime ∧ p * p ∣ n
  pairs : ∀ pair ∈ s.pairs, pair.pairs = n.factorization pair.prime.toNat / 2
  contributions : ∀ pair ∈ s.pairs, pair.contribution.toNat = pair.prime.toNat ^ pair.pairs
  outside : (s.pairs.map fun pair => pair.contribution.toNat).prod = s.outside.toNat
  inside : s.inside.toNat = ∏ p ∈ n.primeFactors with Odd (n.factorization p), p

/-- The root of a positive word is simplified by extracting its pairs, and all numbers in the
simplification are exact. -/
theorem simplification_extractsPairsOf (n : UInt64) (hn : 1 ≤ n) :
    ∃ s, simplification? n = .ok s ∧ s.ExtractsPairsOf n.toNat := by
  have hne : n ≠ 0 := by
    rintro rfl
    exact absurd hn (by decide)
  have hprimes : ((simplify n).pairs.map PairExtraction.entry).map Prod.fst =
      (simplify n).pairs.map fun pair => pair.prime.toNat := List.map_map
  have hpowers :
      ((simplify n).pairs.map PairExtraction.entry).map (fun entry => entry.1 ^ entry.2) =
        (simplify n).pairs.map fun pair => pair.contribution.toNat := by
    rw [List.map_map]
    exact List.map_congr_left fun pair hpair => (toNat_contribution hn hpair).symm
  refine ⟨simplify n, if_neg hne, ?_, fun p => ?_, fun pair hpair => ?_, ?_, ?_, ?_⟩
  · rw [← hprimes]
    exact pairwise_primes n
  · rw [← hprimes, ← pow_two]
    exact mem_primes_iff hn
  · exact congrArg PairExtraction.pairs (mem_pairs_simplify_iff.1 hpair).2
  · exact fun pair hpair => toNat_contribution hn hpair
  · rw [← hpowers, prod_pairs_simplify hn]
  · rw [(toNat_simplify hn).2, insideOf_tally_eq_prod]

/-- A word with 49 prime factors, of which 24 pairs go outside. -/
theorem simplification_extractsPairsOf_many :
    (1 : UInt64) ≤ 15533828336517120000 ∧ ∃ s, simplification? 15533828336517120000 = .ok s ∧
      s.ExtractsPairsOf 15533828336517120000 ∧
      s.pairs = [⟨2, 16, 65536⟩, ⟨3, 5, 243⟩, ⟨5, 2, 25⟩, ⟨7, 1, 7⟩] ∧
      s.outside = 2786918400 ∧ s.inside = 2 := by
  refine ⟨by decide, ?_⟩
  obtain ⟨s, hs, hextracts⟩ := simplification_extractsPairsOf 15533828336517120000 (by decide)
  have hsimplify : s = simplify 15533828336517120000 := (Except.ok.inj hs).symm
  refine ⟨s, hs, hextracts, ?_⟩
  rw [hsimplify]
  decide +kernel

end Stepwise
