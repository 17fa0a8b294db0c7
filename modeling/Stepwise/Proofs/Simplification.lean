import Mathlib.Data.Nat.Squarefree
import Stepwise.Proofs.CheckedArithmetic
import Stepwise.Proofs.Factorization
import Stepwise.Proofs.Tally

set_option autoImplicit false

/-! # Simplified square roots

A prime that divides a number `k` times goes outside the root `k / 2` times, and once more
inside it if `k` is odd. So the number is the square of what is outside times what is inside,
the inside is square-free, and a number can be split in this way only once.

The products are computed on words. `takeCount` is one round of this computation with a check
before each operation; no check ever fails, because every product on the way is at most the
number itself.
-/

namespace Stepwise

/-! ## The parts of a number -/

/-- The factor outside the root that counted primes lead to. -/
def outsideOf (counts : List (UInt64 × Nat)) : Nat :=
  (counts.map fun entry => entry.1.toNat ^ (entry.2 / 2)).prod

/-- The number inside the root that counted primes lead to. -/
def insideOf (counts : List (UInt64 × Nat)) : Nat :=
  (counts.map fun entry => entry.1.toNat ^ (entry.2 % 2)).prod

theorem outsideOf_cons (entry : UInt64 × Nat) (counts : List (UInt64 × Nat)) :
    outsideOf (entry :: counts) = entry.1.toNat ^ (entry.2 / 2) * outsideOf counts := by
  rw [outsideOf, List.map_cons, List.prod_cons, outsideOf]

theorem insideOf_cons (entry : UInt64 × Nat) (counts : List (UInt64 × Nat)) :
    insideOf (entry :: counts) = entry.1.toNat ^ (entry.2 % 2) * insideOf counts := by
  rw [insideOf, List.map_cons, List.prod_cons, insideOf]

theorem prod_pow_pos {counts : List (UInt64 × Nat)}
    (hpos : ∀ entry ∈ counts, 0 < entry.1.toNat) (exponent : UInt64 × Nat → Nat) :
    0 < (counts.map fun entry => entry.1.toNat ^ exponent entry).prod := by
  apply List.prod_pos
  intro power hmem
  obtain ⟨entry, hentry, rfl⟩ := List.mem_map.1 hmem
  exact Nat.pow_pos (hpos entry hentry)

theorem outsideOf_pos {counts : List (UInt64 × Nat)}
    (hpos : ∀ entry ∈ counts, 0 < entry.1.toNat) : 0 < outsideOf counts :=
  prod_pow_pos hpos _

theorem insideOf_pos {counts : List (UInt64 × Nat)}
    (hpos : ∀ entry ∈ counts, 0 < entry.1.toNat) : 0 < insideOf counts :=
  prod_pow_pos hpos _

theorem outsideOf_mul_self_mul_insideOf (counts : List (UInt64 × Nat)) :
    outsideOf counts * outsideOf counts * insideOf counts =
      (counts.map fun entry => entry.1.toNat ^ entry.2).prod := by
  induction counts with
  | nil => simp [outsideOf, insideOf]
  | cons entry counts ih =>
      have hsplit : entry.1.toNat ^ entry.2 =
          entry.1.toNat ^ (entry.2 / 2) * entry.1.toNat ^ (entry.2 / 2) *
            entry.1.toNat ^ (entry.2 % 2) := by
        rw [← pow_add, ← pow_add]
        congr 1
        omega
      rw [outsideOf_cons, insideOf_cons, List.map_cons, List.prod_cons, ← ih, hsplit]
      ring

/-- Distinct primes have a square-free product. -/
theorem squarefree_prod {primes : List Nat} (hprime : ∀ p ∈ primes, p.Prime)
    (hdistinct : primes.Nodup) : Squarefree primes.prod := by
  have hne : primes.prod ≠ 0 := fun h => (hprime 0 (List.prod_eq_zero_iff.1 h)).ne_zero rfl
  have hperm := Nat.primeFactorsList_unique rfl hprime
  exact (Nat.squarefree_iff_nodup_primeFactorsList hne).2 (hperm.nodup_iff.1 hdistinct)

theorem insideOf_eq_prod (counts : List (UInt64 × Nat)) :
    insideOf counts =
      (((counts.filter fun entry => entry.2 % 2 = 1).map Prod.fst).map UInt64.toNat).prod := by
  induction counts with
  | nil => rfl
  | cons entry counts ih =>
      rw [insideOf_cons, ih]
      rcases Nat.mod_two_eq_zero_or_one entry.2 with h | h
      · simp [h]
      · simp [h]

/-- A number is a square times a square-free number. -/
structure IsSplit (n outside inside : Nat) : Prop where
  product : outside * outside * inside = n
  squarefree : Squarefree inside

/-- A number can be split in one way only. -/
theorem IsSplit.unique {n a b c d : Nat} (hn : 0 < n) (hab : IsSplit n a b)
    (hcd : IsSplit n c d) : a = c ∧ b = d := by
  have h : a * a * b = c * c * d := hab.product.trans hcd.product.symm
  have ha : a ≠ 0 := by
    rintro rfl
    simp [← hab.product] at hn
  have hc : c ≠ 0 := by
    rintro rfl
    simp [← hcd.product] at hn
  have hb := hab.squarefree.ne_zero
  have hd := hcd.squarefree.ne_zero
  have hac : a = c := by
    refine Nat.eq_of_factorization_eq ha hc fun p => ?_
    have hp := congrArg (fun n => n.factorization p) h
    simp only [Nat.factorization_mul (mul_ne_zero ha ha) hb,
      Nat.factorization_mul (mul_ne_zero hc hc) hd, Nat.factorization_mul ha ha,
      Nat.factorization_mul hc hc, Finsupp.add_apply] at hp
    -- the exponents in a square-free number are the remainders by two
    have hbp := hab.squarefree.natFactorization_le_one p
    have hdp := hcd.squarefree.natFactorization_le_one p
    omega
  subst hac
  exact ⟨rfl, Nat.eq_of_mul_eq_mul_left (Nat.pos_of_ne_zero (mul_ne_zero ha ha)) h⟩

/-! ## Products that are checked -/

/-- The pairs of a counted prime multiply the product outside. -/
def takePairs (outside : UInt64) (entry : UInt64 × Nat) : Option UInt64 :=
  if entry.2 / 2 = 0 then some outside
  else (checkedPow entry.1 (entry.2 / 2)).bind (checkedMul outside)

/-- A counted prime without a partner multiplies the product inside. -/
def takeUnpaired (inside : UInt64) (entry : UInt64 × Nat) : Option UInt64 :=
  if entry.2 % 2 = 1 then checkedMul inside entry.1 else some inside

/-- One round of the simplification: the products outside and inside after a counted prime. No
result means that an operation would leave the word. -/
def takeCount (products : UInt64 × UInt64) (entry : UInt64 × Nat) : Option (UInt64 × UInt64) :=
  (takePairs products.1 entry).bind fun outside =>
    (takeUnpaired products.2 entry).map fun inside => (outside, inside)

/-! ### One round -/

theorem takeCount_eq_some_iff {products next : UInt64 × UInt64} {entry : UInt64 × Nat} :
    takeCount products entry = some next ↔
      takePairs products.1 entry = some next.1 ∧ takeUnpaired products.2 entry = some next.2 := by
  obtain ⟨outside, inside⟩ := next
  simp [takeCount, Option.bind_eq_some_iff]

/-- The pairs of a prime are taken without leaving the word if the exact product is a word. -/
theorem takePairs_eq_some_iff {outside next : UInt64} {entry : UInt64 × Nat}
    (hpos : 0 < outside.toNat) :
    takePairs outside entry = some next ↔
      next.toNat = outside.toNat * entry.1.toNat ^ (entry.2 / 2) := by
  rw [takePairs]
  split
  · next hpairs =>
      rw [Option.some_inj, ← UInt64.toNat_inj, hpairs, pow_zero, mul_one]
      exact eq_comm
  · simp only [Option.bind_eq_some_iff, checkedPow_eq_some_iff, checkedMul_eq_some_iff]
    constructor
    · rintro ⟨power, hpower, hnext⟩
      rw [hnext, hpower]
    · intro hnext
      -- the power is at most the product, and so a word as well
      have hle : entry.1.toNat ^ (entry.2 / 2) ≤ next.toNat := by
        rw [hnext]
        exact Nat.le_mul_of_pos_left _ hpos
      obtain ⟨power, hpower⟩ := exists_toNat_eq hle
      exact ⟨power, hpower, by rw [hnext, hpower]⟩

theorem takeUnpaired_eq_some_iff {inside next : UInt64} {entry : UInt64 × Nat} :
    takeUnpaired inside entry = some next ↔
      next.toNat = inside.toNat * entry.1.toNat ^ (entry.2 % 2) := by
  rw [takeUnpaired]
  split
  · next hodd => rw [checkedMul_eq_some_iff, hodd, pow_one]
  · next heven =>
      have hzero : entry.2 % 2 = 0 := by omega
      rw [Option.some_inj, ← UInt64.toNat_inj, hzero, pow_zero, mul_one]
      exact eq_comm

/-- A round that stays within the word has the products of the plain computation. -/
theorem takePairs_eq_foldl {outside next : UInt64} {entry : UInt64 × Nat}
    (h : takePairs outside entry = some next) :
    next = (([entry].filterMap PairExtraction.ofCount).map
      PairExtraction.contribution).foldl (· * ·) outside := by
  rw [takePairs] at h
  split at h
  · next hpairs =>
      have hnext : outside = next := Option.some.inj h
      simp [PairExtraction.ofCount, hpairs, hnext]
  · next hpairs =>
      obtain ⟨power, hpower, hmul⟩ := Option.bind_eq_some_iff.1 h
      rw [← eq_of_ifExact hmul, ← eq_of_ifExact hpower]
      simp [PairExtraction.ofCount, hpairs]

theorem takeUnpaired_eq_foldl {inside next : UInt64} {entry : UInt64 × Nat}
    (h : takeUnpaired inside entry = some next) :
    next = (([entry].filter fun entry => entry.2 % 2 = 1).map Prod.fst).foldl
      (· * ·) inside := by
  rw [takeUnpaired] at h
  split at h
  · next hodd =>
      rw [← eq_of_ifExact h]
      simp [hodd]
  · next heven =>
      have hnext : inside = next := Option.some.inj h
      simp [heven, hnext]

/-! ### All rounds -/

/-- The rounds stay within the word if the exact products are words. -/
theorem foldlM_takeCount_eq_some {counts : List (UInt64 × Nat)}
    {products result : UInt64 × UInt64} (hpos : ∀ entry ∈ counts, 0 < entry.1.toNat)
    (houtside : 0 < products.1.toNat)
    (hresult : result.1.toNat = products.1.toNat * outsideOf counts ∧
      result.2.toNat = products.2.toNat * insideOf counts) :
    counts.foldlM takeCount products = some result := by
  induction counts generalizing products with
  | nil =>
      obtain ⟨outside, inside⟩ := products
      obtain ⟨houtside, hinside⟩ := hresult
      simp only [outsideOf, insideOf, List.map_nil, List.prod_nil, mul_one,
        UInt64.toNat_inj] at houtside hinside
      simp [← houtside, ← hinside]
  | cons entry counts ih =>
      have hentry : 0 < entry.1.toNat := hpos entry List.mem_cons_self
      have hrest : ∀ entry ∈ counts, 0 < entry.1.toNat :=
        fun entry hmem => hpos entry (List.mem_cons_of_mem _ hmem)
      rw [outsideOf_cons, insideOf_cons, ← mul_assoc, ← mul_assoc] at hresult
      -- the products after this round are at most the final ones
      obtain ⟨outside, hfst⟩ := exists_toNat_eq
        ((Nat.le_mul_of_pos_right _ (outsideOf_pos hrest)).trans_eq hresult.1.symm)
      obtain ⟨inside, hsnd⟩ := exists_toNat_eq
        ((Nat.le_mul_of_pos_right _ (insideOf_pos hrest)).trans_eq hresult.2.symm)
      rw [← hfst, ← hsnd] at hresult
      have hround : takeCount products entry = some (outside, inside) :=
        takeCount_eq_some_iff.2
          ⟨(takePairs_eq_some_iff houtside).2 hfst, takeUnpaired_eq_some_iff.2 hsnd⟩
      have hnext : 0 < outside.toNat := by
        rw [hfst]
        exact Nat.mul_pos houtside (Nat.pow_pos hentry)
      rw [List.foldlM_cons, hround]
      exact ih hrest hnext hresult

/-- Rounds that stay within the word have the products of the plain computation. -/
theorem foldlM_takeCount_eq_foldl {counts : List (UInt64 × Nat)}
    {products result : UInt64 × UInt64} (h : counts.foldlM takeCount products = some result) :
    result.1 = ((counts.filterMap PairExtraction.ofCount).map
        PairExtraction.contribution).foldl (· * ·) products.1 ∧
      result.2 = ((counts.filter fun entry => entry.2 % 2 = 1).map Prod.fst).foldl
        (· * ·) products.2 := by
  induction counts generalizing products with
  | nil =>
      have hproducts : products = result := Option.some.inj h
      simp [hproducts]
  | cons entry counts ih =>
      rw [List.foldlM_cons] at h
      obtain ⟨next, hround, hrest⟩ := Option.bind_eq_some_iff.1 h
      obtain ⟨hpairs, hunpaired⟩ := takeCount_eq_some_iff.1 hround
      have hfst := takePairs_eq_foldl hpairs
      have hsnd := takeUnpaired_eq_foldl hunpaired
      obtain ⟨houtside, hinside⟩ := ih hrest
      constructor
      · rw [houtside, hfst, ← List.foldl_append, ← List.map_append, ← List.filterMap_append]
        rfl
      · rw [hinside, hsnd, ← List.foldl_append, ← List.map_append, ← List.filter_append]
        rfl

/-! ## The simplification of a root -/

theorem pos_of_mem_tally_primeFactors {n : UInt64} :
    ∀ entry ∈ tally (primeFactors n), 0 < entry.1.toNat := by
  rintro ⟨p, count⟩ hmem
  have hp := (((tallies_tally (primeFactors n)).exact p count).1 hmem).1
  exact (prime_of_mem_primeFactors hp).pos

/-- The primes that are left without a partner. -/
def unpairedPrimes (n : UInt64) : List Nat :=
  (((tally (primeFactors n)).filter fun entry => entry.2 % 2 = 1).map Prod.fst).map UInt64.toNat

theorem nodup_unpairedPrimes (n : UInt64) : (unpairedPrimes n).Nodup := by
  refine List.Nodup.map (fun _ _ h => UInt64.toNat_inj.1 h) ?_
  exact (tallies_tally (primeFactors n)).distinct.sublist (List.filter_sublist.map Prod.fst)

/-- The counted prime factors of a word split it. -/
theorem isSplit_tally {n : UInt64} (hn : 1 ≤ n) :
    IsSplit n.toNat (outsideOf (tally (primeFactors n))) (insideOf (tally (primeFactors n))) := by
  have htallies := tallies_tally (primeFactors n)
  constructor
  · rw [outsideOf_mul_self_mul_insideOf, prod_tally UInt64.toNat, prod_primeFactors hn]
  · rw [insideOf_eq_prod]
    apply squarefree_prod
    · intro p hp
      obtain ⟨word, hword, rfl⟩ := List.mem_map.1 hp
      obtain ⟨⟨key, count⟩, hentry, rfl⟩ := List.mem_map.1 hword
      have hmem := (htallies.exact key count).1 (List.mem_of_mem_filter hentry)
      exact prime_of_mem_primeFactors hmem.1
    · exact nodup_unpairedPrimes n

/-- The rounds over the counted prime factors of a word stay within the word. -/
theorem foldlM_takeCount_tally {n : UInt64} (hn : 1 ≤ n) :
    ∃ result, (tally (primeFactors n)).foldlM takeCount (1, 1) = some result ∧
      result.1.toNat = outsideOf (tally (primeFactors n)) ∧
      result.2.toNat = insideOf (tally (primeFactors n)) := by
  have hpos := pos_of_mem_tally_primeFactors (n := n)
  have hproduct := (isSplit_tally hn).product
  have ho := outsideOf_pos hpos
  have hi := insideOf_pos hpos
  -- both products are factors of the number, and so words
  have houtside : outsideOf (tally (primeFactors n)) ≤ n.toNat := by
    calc outsideOf (tally (primeFactors n))
        ≤ outsideOf (tally (primeFactors n)) *
            (outsideOf (tally (primeFactors n)) * insideOf (tally (primeFactors n))) :=
          Nat.le_mul_of_pos_right _ (Nat.mul_pos ho hi)
      _ = n.toNat := by rw [← mul_assoc, hproduct]
  have hinside : insideOf (tally (primeFactors n)) ≤ n.toNat := by
    calc insideOf (tally (primeFactors n))
        ≤ outsideOf (tally (primeFactors n)) * outsideOf (tally (primeFactors n)) *
            insideOf (tally (primeFactors n)) := Nat.le_mul_of_pos_left _ (Nat.mul_pos ho ho)
      _ = n.toNat := hproduct
  obtain ⟨outside, hfst⟩ := exists_toNat_eq houtside
  obtain ⟨inside, hsnd⟩ := exists_toNat_eq hinside
  refine ⟨(outside, inside), foldlM_takeCount_eq_some hpos (by decide) ?_, hfst, hsnd⟩
  exact ⟨by rw [hfst]; exact (one_mul _).symm, by rw [hsnd]; exact (one_mul _).symm⟩

/-- The root of a positive word is simplified without leaving the word, and the result is the
only way to write the word as a square times a square-free number. -/
theorem isSplit_simplification (n : UInt64) (hn : 1 ≤ n) :
    ∃ s, simplification? n = .ok s ∧
      (tally (primeFactors n)).foldlM takeCount (1, 1) = some (s.outside, s.inside) ∧
      0 < s.outside.toNat ∧ 0 < s.inside.toNat ∧
      IsSplit n.toNat s.outside.toNat s.inside.toNat ∧
      ∀ outside inside, IsSplit n.toNat outside inside →
        outside = s.outside.toNat ∧ inside = s.inside.toNat := by
  have hpos := pos_of_mem_tally_primeFactors (n := n)
  have hsplit := isSplit_tally hn
  obtain ⟨result, hrounds, houtside, hinside⟩ := foldlM_takeCount_tally hn
  obtain ⟨hfst, hsnd⟩ := foldlM_takeCount_eq_foldl hrounds
  have hne : n ≠ 0 := by
    rintro rfl
    exact absurd hn (by decide)
  have hn' : 0 < n.toNat := UInt64.le_iff_toNat_le.1 hn
  refine ⟨simplify n, by rw [simplification?, if_neg hne], ?_, ?_⟩
  · rw [hrounds]
    exact congrArg some (Prod.ext hfst hsnd)
  · have hfst : (simplify n).outside = result.1 := hfst.symm
    have hsnd : (simplify n).inside = result.2 := hsnd.symm
    rw [hfst, hsnd, houtside, hinside]
    exact ⟨outsideOf_pos hpos, insideOf_pos hpos, hsplit,
      fun outside inside h => h.unique hn' hsplit⟩

/-- Nothing is left inside the root of the greatest square that is a word. -/
theorem isSplit_simplification_greatest_square :
    (1 : UInt64) ≤ 18446744065119617025 ∧
      ∃ s, simplification? 18446744065119617025 = .ok s ∧
        s.outside.toNat = 4294967295 ∧ s.inside.toNat = 1 := by
  refine ⟨by decide, ?_⟩
  obtain ⟨s, hs, -, -, -, -, hunique⟩ :=
    isSplit_simplification 18446744065119617025 (by decide)
  obtain ⟨houtside, hinside⟩ := hunique 4294967295 1 ⟨by decide, squarefree_one⟩
  exact ⟨s, hs, houtside.symm, hinside.symm⟩

/-! ## The words of a simplification -/

/-- The words outside and inside are the exact products. -/
theorem toNat_simplify {n : UInt64} (hn : 1 ≤ n) :
    (simplify n).outside.toNat = outsideOf (tally (primeFactors n)) ∧
      (simplify n).inside.toNat = insideOf (tally (primeFactors n)) := by
  obtain ⟨result, hrounds, houtside, hinside⟩ := foldlM_takeCount_tally hn
  obtain ⟨hfst, hsnd⟩ := foldlM_takeCount_eq_foldl hrounds
  have hfst : (simplify n).outside = result.1 := hfst.symm
  have hsnd : (simplify n).inside = result.2 := hsnd.symm
  rw [hfst, hsnd]
  exact ⟨houtside, hinside⟩

theorem isSplit_simplify {n : UInt64} (hn : 1 ≤ n) :
    IsSplit n.toNat (simplify n).outside.toNat (simplify n).inside.toNat := by
  obtain ⟨houtside, hinside⟩ := toNat_simplify hn
  rw [houtside, hinside]
  exact isSplit_tally hn

/-- Nothing is left inside the root of a square, and of no other number. -/
theorem isPerfectSquare_simplify_iff {n : UInt64} (hn : 1 ≤ n) :
    (simplify n).isPerfectSquare = true ↔ IsSquare n.toNat := by
  have hsplit := isSplit_simplify hn
  rw [Simplification.isPerfectSquare, decide_eq_true_eq]
  constructor
  · intro hinside
    have hproduct := hsplit.product
    rw [hinside] at hproduct
    exact ⟨(simplify n).outside.toNat, by rw [← hproduct]; exact mul_one _⟩
  · rintro ⟨root, hroot⟩
    have hsquare : IsSplit n.toNat root 1 := ⟨by rw [mul_one, hroot], squarefree_one⟩
    exact UInt64.toNat_inj.1 (hsplit.unique (UInt64.le_iff_toNat_le.1 hn) hsquare).2

end Stepwise
