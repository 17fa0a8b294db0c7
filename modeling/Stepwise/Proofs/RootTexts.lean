import Stepwise.Explain.Root
import Stepwise.Proofs.ExtractedPairs
import Stepwise.Proofs.Lines
import Stepwise.Proofs.Numerals

set_option autoImplicit false

/-! # The texts of a root, read back

What the explanation of a root tells about its number is true. The product that it shows reads back
as the prime factors (`Trace.ShowsFactorization`), the lines of the pairs are those of the primes
whose square divides the number (`Trace.ShowsPairs`), and the simplified form reads back as the
number outside and the number inside the root (`Trace.ShowsForm`). The texts are put together from
words, and what is read from them is natural numbers, so no product on the way is cut off.
-/

namespace Stepwise

/-! ## Reading -/

/-- The factors of a product of numerals. -/
def readProduct? (t : Text) : Option (List Nat) :=
  (Text.splitOn (· = '×') t).mapM fun factor => readNat? (Text.trim factor)

/-- The coefficient in front of a root; one, if nothing stands there. -/
def readCoefficient? (t : Text) : Option Nat :=
  if t = [] then some 1
  else match Text.splitOn (· = '·') t with
    | [coefficient, gap] => if gap = [' '] then readNat? (Text.trim coefficient) else none
    | _ => none

/-- The coefficient and the radicand of a simplified form. -/
def readForm? (t : Text) : Option (Nat × Nat) :=
  match Text.splitOn (· = '√') t with
  | [coefficient, radicand] =>
      (readCoefficient? coefficient).bind fun outside =>
        (readNat? radicand).map fun inside => (outside, inside)
  | _ => none

theorem toString_word (word : UInt64) : toString word = toString word.toNat := rfl

theorem readProduct?_append_joinWith {numbers : List Nat} (hne : numbers ≠ []) {before : Text}
    (hbefore : AllWhiteSpace before) :
    readProduct? (before ++ (joinWith " × " (numbers.map toString)).toList) = some numbers := by
  induction numbers generalizing before with
  | nil => exact absurd rfl hne
  | cons number rest ih =>
      have hcut : '×' ∉ before := fun hmem => absurd (hbefore _ hmem) (by decide)
      have hdigits : '×' ∉ Nat.toDigits 10 number := not_mem_toDigits (by decide) number
      cases rest with
      | nil =>
          have hread := readNat?_trim_toDigits hbefore (List.forall_mem_nil _) number
          rw [List.append_nil] at hread
          rw [List.map_singleton, joinWith, toList_toString, readProduct?,
            Text.splitOn_eq_singleton (by simp [hcut, hdigits]), List.mapM_cons, hread]
          rfl
      | cons next rest =>
          have hspace : AllWhiteSpace [' '] := List.forall_mem_singleton.2 (by decide)
          have hread := readNat?_trim_toDigits hbefore hspace number
          have hpiece : Text.splitOn (· = '×') (before ++ Nat.toDigits 10 number ++ [' ']) =
              [before ++ Nat.toDigits 10 number ++ [' ']] :=
            Text.splitOn_eq_singleton (by simp [hcut, hdigits])
          have htext : before ++ (joinWith " × " ((number :: next :: rest).map toString)).toList =
              (before ++ Nat.toDigits 10 number ++ [' ']) ++ '×' ::
                ([' '] ++ (joinWith " × " ((next :: rest).map toString)).toList) := by
            rw [List.map_cons, List.map_cons, joinWith_cons_cons]
            simp
          have hrest := ih (List.cons_ne_nil next rest) hspace
          rw [readProduct?] at hrest ⊢
          rw [htext, Text.splitOn_append_cons (by decide), hpiece, List.singleton_append,
            List.mapM_cons, hread, hrest]
          rfl

/-- A product of numerals is read back. -/
theorem readProduct?_joinWith {numbers : List Nat} (hne : numbers ≠ []) :
    readProduct? (joinWith " × " (numbers.map toString)).toList = some numbers :=
  readProduct?_append_joinWith hne (List.forall_mem_nil _)

theorem readCoefficient?_toDigits (n : Nat) :
    readCoefficient? (Nat.toDigits 10 n ++ [' ', '·', ' ']) = some n := by
  have hspace : AllWhiteSpace [' '] := List.forall_mem_singleton.2 (by decide)
  have hread := readNat?_trim_toDigits (List.forall_mem_nil _) hspace n
  have hpiece : Text.splitOn (· = '·') (Nat.toDigits 10 n ++ [' ']) = [Nat.toDigits 10 n ++ [' ']] :=
    Text.splitOn_eq_singleton (by simp [not_mem_toDigits])
  have hsplit : Text.splitOn (· = '·') (Nat.toDigits 10 n ++ [' ', '·', ' ']) =
      [Nat.toDigits 10 n ++ [' '], [' ']] := by
    rw [show Nat.toDigits 10 n ++ [' ', '·', ' '] =
        (Nat.toDigits 10 n ++ [' ']) ++ '·' :: [' '] by simp,
      Text.splitOn_append_cons (by decide), hpiece]
    rfl
  rw [readCoefficient?, if_neg (by simp), hsplit]
  exact (if_pos rfl).trans hread

/-- A simplified form is read back. -/
theorem readForm?_form (s : Simplification) :
    readForm? s.form.toList = some (s.outside.toNat, s.inside.toNat) := by
  obtain ⟨front, htext, hfront, hread⟩ : ∃ front : Text,
      s.form.toList = front ++ '√' :: Nat.toDigits 10 s.inside.toNat ∧ '√' ∉ front ∧
        readCoefficient? front = some s.outside.toNat := by
    rw [Simplification.form, toString_word, toString_word]
    split
    · next hone => exact ⟨[], by simp, List.not_mem_nil, by rw [hone]; rfl⟩
    · exact ⟨Nat.toDigits 10 s.outside.toNat ++ [' ', '·', ' '], by simp,
        by simp [not_mem_toDigits], readCoefficient?_toDigits _⟩
  have hradicand : Text.splitOn (· = '√') (Nat.toDigits 10 s.inside.toNat) =
      [Nat.toDigits 10 s.inside.toNat] :=
    Text.splitOn_eq_singleton (not_mem_toDigits (by decide) _)
  rw [readForm?, htext, Text.splitOn_append_cons (by decide), Text.splitOn_eq_singleton hfront,
    hradicand]
  simp [hread, readNat?_toDigits]

/-! ## Steps -/

/-- The details of the steps with the title. -/
def Trace.detailsOf (t : Trace) (title : String) : List (Option String) :=
  (t.steps.filter fun step => step.title = title).map Step.detail

section

variable {n : UInt64} (hn : 1 ≤ n)
include hn

theorem detailsOf_factorization :
    (explainRoot n).detailsOf "Prime factorize the number" =
      [(factorizationStep (simplify n)).detail] := by
  rw [Trace.detailsOf, explainRoot_steps hn, extractionSteps, conclusionSteps]
  split <;> split <;> simp [rootDefinition, factorizationStep]

theorem detailsOf_extraction :
    (explainRoot n).detailsOf "Extract perfect square factors" =
      (extractionSteps (simplify n)).map Step.detail := by
  rw [Trace.detailsOf, explainRoot_steps hn, extractionSteps, conclusionSteps]
  split <;> split <;> simp [rootDefinition, factorizationStep]

theorem detailsOf_leftover (h : ¬ IsSquare n.toNat) :
    (explainRoot n).detailsOf "Leftover under the root" =
      [some ("One of each unpaired prime stays inside √, so the simplified form is " ++
        (simplify n).form ++ ".")] := by
  rw [Trace.detailsOf, explainRoot_steps hn, extractionSteps, conclusionSteps,
    if_neg fun hsquare => h ((isPerfectSquare_simplify_iff hn).1 hsquare)]
  split <;> simp [rootDefinition, factorizationStep]

end

/-! ## Factors -/

/-- The trace shows the number as a product, which reads back as its prime factors in order. -/
def Trace.ShowsFactorization (t : Trace) (n : Nat) : Prop :=
  ∃ (primes : List Nat) (product : String),
    t.detailsOf "Prime factorize the number" = [some (toString n ++ " = " ++ product)] ∧
    product = joinWith " × " (primes.map toString) ∧ readProduct? product.toList = some primes ∧
    (∀ p ∈ primes, p.Prime) ∧ primes.Pairwise (· ≤ ·) ∧ primes.prod = n

theorem productText_eq (factors : List UInt64) :
    productText factors = joinWith " × " ((factors.map UInt64.toNat).map toString) := by
  rw [productText, List.map_map]
  rfl

theorem primeFactors_ne_nil {n : UInt64} (h : 2 ≤ n) : primeFactors n ≠ [] := by
  have hn : 2 ≤ n.toNat := UInt64.le_iff_toNat_le.1 h
  intro hnil
  have hlist := map_toNat_primeFactors n
  rw [hnil, List.map_nil, eq_comm, Nat.primeFactorsList_eq_nil] at hlist
  omega

theorem explainRoot_showsFactorization {n : UInt64} (h : 2 ≤ n) :
    (explainRoot n).ShowsFactorization n.toNat := by
  have hn : 1 ≤ n := UInt64.le_trans (by decide) h
  have hne : (primeFactors n).map UInt64.toNat ≠ [] :=
    List.map_eq_nil_iff.not.2 (primeFactors_ne_nil h)
  refine ⟨(primeFactors n).map UInt64.toNat, productText (primeFactors n), ?_, productText_eq _,
    ?_, ?_, ?_, prod_primeFactors hn⟩
  · have hfactors : (simplify n).factors ≠ [] := primeFactors_ne_nil h
    rw [detailsOf_factorization hn, factorizationStep, if_neg hfactors]
    rfl
  · rw [productText_eq]
    exact readProduct?_joinWith hne
  · exact List.forall_mem_map.2 fun p hp => prime_of_mem_primeFactors hp
  · rw [map_toNat_primeFactors]
    exact (Nat.primeFactorsList_sorted _).pairwise

/-! ## Pairs -/

/-- The line in front of the pairs. -/
def pairsHeading : String :=
  "Group equal primes in pairs. Each pair comes out of √ as a single prime."

/-- The line of a prime with so many pairs. -/
def pairsLine (prime pairs : Nat) : String :=
  toString prime ++ " appears in " ++ toString pairs ++ (if pairs > 1 then " pairs" else " pair") ++
    " ⇒ contributes " ++ toString (prime ^ pairs) ++ " outside the root"

/-- The trace shows the entries on lines of their own, behind a heading; without entries it has no
step for them. -/
def Trace.ShowsPairs (t : Trace) (entries : List (Nat × Nat)) : Prop :=
  (entries = [] ∧ t.detailsOf "Extract perfect square factors" = []) ∨
    (entries ≠ [] ∧ ∃ detail,
      t.detailsOf "Extract perfect square factors" = [some detail] ∧
      Text.lines detail.toList =
        pairsHeading.toList :: entries.map fun entry => (pairsLine entry.1 entry.2).toList)

theorem isLine_pairsLine (prime pairs : Nat) : Text.IsLine (pairsLine prime pairs).toList := by
  have hchar {c : Char} (hdigit : c.isDigit = false)
      (hwords : c ∉ " appears in pairs ⇒ contributes outside the root".toList) :
      c ∉ (pairsLine prime pairs).toList := by
    unfold pairsLine
    split <;> simp_all [not_mem_toDigits]
  refine ⟨by simp [pairsLine], ?_, ?_⟩
  · exact hchar (by decide) (by simp)
  · exact hchar (by decide) (by simp)

section

variable {n : UInt64} (hn : 1 ≤ n)
include hn

theorem line_of_mem_pairs {pair : PairExtraction} (h : pair ∈ (simplify n).pairs) :
    pair.line = pairsLine pair.prime.toNat pair.pairs := by
  rw [PairExtraction.line, pairsLine, toString_word, toString_word, toNat_contribution hn h]
  split <;> simp [← String.toList_inj]

theorem explainRoot_showsPairs :
    (explainRoot n).ShowsPairs ((simplify n).pairs.map PairExtraction.entry) := by
  have hlines : (simplify n).pairs.map PairExtraction.line =
      (simplify n).pairs.map fun pair => pairsLine pair.prime.toNat pair.pairs :=
    List.map_congr_left fun pair hpair => line_of_mem_pairs hn hpair
  rw [Trace.ShowsPairs, detailsOf_extraction hn, extractionSteps]
  by_cases hnil : (simplify n).pairs = []
  · rw [if_pos hnil, hnil]
    exact .inl ⟨rfl, rfl⟩
  · have hheading : Text.IsLine pairsHeading.toList := by
      constructor <;> simp [pairsHeading]
    have hend : "Group equal primes in pairs. Each pair comes out of √ as a single prime.\n" =
        pairsHeading ++ "\n" := by
      simp [pairsHeading]
    have hpieces : ∀ piece ∈ (simplify n).pairs.map fun pair =>
        pairsLine pair.prime.toNat pair.pairs, Text.IsLine piece.toList :=
      List.forall_mem_map.2 fun _ _ => isLine_pairsLine _ _
    rw [if_neg hnil, hlines, hend]
    refine .inr ⟨List.map_eq_nil_iff.not.2 hnil, _, rfl, ?_⟩
    rw [Text.lines_heading_joinWith hheading (List.map_eq_nil_iff.not.2 hnil) hpieces,
      List.map_map, List.map_map]
    rfl

end

/-! ## Simplified forms -/

/-- The trace shows a simplified form, which reads back as the two numbers. -/
def Trace.ShowsForm (t : Trace) (outside inside : Nat) : Prop :=
  ∃ form : String,
    t.detailsOf "Leftover under the root" =
      [some ("One of each unpaired prime stays inside √, so the simplified form is " ++ form ++
        ".")] ∧
    readForm? form.toList = some (outside, inside)

theorem explainRoot_showsForm {n : UInt64} (hn : 1 ≤ n) (h : ¬ IsSquare n.toNat) :
    (explainRoot n).ShowsForm (simplify n).outside.toNat (simplify n).inside.toNat :=
  ⟨(simplify n).form, detailsOf_leftover hn h, readForm?_form _⟩

/-! ## The whole explanation -/

/-- Everything that the explanation of the root of a positive number shows is true: the prime
factors, the pairs of the primes whose square divides the number and of no others, and for a number
that is no square the simplified form, whose coefficient is the product of what the pairs
contribute. -/
theorem explainRoot_texts (n : UInt64) (hn : 1 ≤ n) :
    (2 ≤ n → (explainRoot n).ShowsFactorization n.toNat) ∧
    ∃ entries, ListsPairs n.toNat entries ∧ (explainRoot n).ShowsPairs entries ∧
      ((explainRoot n).detailsOf "Extract perfect square factors" ≠ [] ↔
        ∃ p, p.Prime ∧ p ^ 2 ∣ n.toNat) ∧
      (¬ IsSquare n.toNat → ∃ inside,
        (explainRoot n).ShowsForm (entries.map fun entry => entry.1 ^ entry.2).prod inside ∧
        IsSplit n.toNat (entries.map fun entry => entry.1 ^ entry.2).prod inside ∧ 1 < inside) := by
  have hlists := listsPairs_simplify hn
  have hshows := explainRoot_showsPairs hn
  refine ⟨explainRoot_showsFactorization, _, hlists, hshows, ?_, fun hsquare => ?_⟩
  · rcases hshows with ⟨hnil, hdetails⟩ | ⟨hne, detail, hdetails, -⟩
    · rw [hdetails]
      refine iff_of_false (fun hne => hne rfl) fun ⟨p, hp⟩ => ?_
      have hmem := (hlists.primes p).2 hp
      rw [hnil] at hmem
      cases hmem
    · rw [hdetails]
      obtain ⟨entry, hentry⟩ := List.exists_mem_of_ne_nil _ hne
      exact iff_of_true (List.cons_ne_nil _ _)
        ⟨entry.1, (hlists.primes entry.1).1 (List.mem_map_of_mem hentry)⟩
  · have hsplit := isSplit_simplify hn
    refine ⟨(simplify n).inside.toNat, ?_⟩
    rw [prod_pairs_simplify hn]
    refine ⟨explainRoot_showsForm hn hsquare, hsplit, ?_⟩
    have hpos := Nat.pos_of_ne_zero hsplit.squarefree.ne_zero
    have hone : (simplify n).inside.toNat ≠ 1 := by
      intro hone
      have hinside : (simplify n).inside = 1 := UInt64.toNat_inj.1 hone
      exact hsquare ((isPerfectSquare_simplify_iff hn).1 (decide_eq_true hinside))
    omega

/-- `1270080 = 2 ^ 6 * 3 ^ 4 * 5 * 7 ^ 2`, with the coefficient `8 * 9 * 7`. -/
theorem explainRoot_texts_1270080 :
    (1 : UInt64) ≤ 1270080 ∧ (2 : UInt64) ≤ 1270080 ∧ ¬ IsSquare (1270080 : UInt64).toNat ∧
    (explainRoot 1270080).ShowsFactorization 1270080 ∧
    (∃ entries, ListsPairs 1270080 entries ∧ (explainRoot 1270080).ShowsPairs entries ∧
      7 ∈ entries.map Prod.fst ∧ 5 ∉ entries.map Prod.fst) ∧
    (explainRoot 1270080).ShowsForm 504 5 := by
  have hone : (1 : UInt64) ≤ 1270080 := by decide
  have htwo : (2 : UInt64) ≤ 1270080 := by decide
  have hsquare : ¬ IsSquare (1270080 : UInt64).toNat := by
    rintro ⟨root, hroot⟩
    exact Nat.not_exists_sq (m := 1126) (by decide) (by decide) ⟨root, hroot.symm⟩
  obtain ⟨hfactors, entries, hlists, hpairs, -, hform⟩ := explainRoot_texts 1270080 hone
  obtain ⟨inside, hshows, hsplit, -⟩ := hform hsquare
  have hknown : IsSplit (1270080 : UInt64).toNat 504 5 :=
    ⟨by decide, (Nat.prime_five.prime).squarefree⟩
  obtain ⟨houtside, rfl⟩ := hsplit.unique (by decide) hknown
  rw [houtside] at hshows
  refine ⟨hone, htwo, hsquare, hfactors htwo, ⟨entries, hlists, hpairs, ?_, ?_⟩, hshows⟩
  · exact (hlists.primes 7).2 ⟨Nat.prime_seven, by decide⟩
  · exact fun hfive => absurd ((hlists.primes 5).1 hfive).2 (by decide)

end Stepwise
