import Mathlib.Algebra.BigOperators.Group.List.Lemmas
import Mathlib.Algebra.Ring.Nat
import Mathlib.Data.List.Induction
import Stepwise.Radical

set_option autoImplicit false

/-! # Counting

A tally grows by one value at a time at its end (`tally_concat`), so its properties are proved
by induction on the values from the end. It holds every value once, with the number of times
the value appears (`tallies_tally`), in the order in which the values first appear
(`inFirstOrder_tally`), and a product over the values is the product of the powers that the tally
describes (`prod_tally`).

The counts are natural numbers. Counts of 32 bits come to the same (`tallyWords_eq`) as long as
the list is shorter than the greatest count.
-/

namespace Stepwise

theorem tally_concat (values : List UInt64) (value : UInt64) :
    tally (values ++ [value]) = countOne value (tally values) := by
  simp [tally, List.foldl_append]

/-! ## Counts -/

/-- The counts hold each of the values once, with the number of times it appears. -/
structure Tallies (counts : List (UInt64 × Nat)) (values : List UInt64) : Prop where
  distinct : (counts.map Prod.fst).Nodup
  exact : ∀ key count, (key, count) ∈ counts ↔ key ∈ values ∧ count = values.count key

theorem map_fst_countOne (value : UInt64) (counts : List (UInt64 × Nat)) :
    (countOne value counts).map Prod.fst =
      if value ∈ counts.map Prod.fst then counts.map Prod.fst
      else counts.map Prod.fst ++ [value] := by
  induction counts with
  | nil => simp [countOne]
  | cons entry rest ih =>
      obtain ⟨key, count⟩ := entry
      rw [countOne]
      split
      · next hkey => simp [hkey]
      · next hkey =>
          have hne : ¬ value = key := fun h => hkey h.symm
          rw [List.map_cons, ih]
          by_cases hmem : value ∈ rest.map Prod.fst
          · simp only [hmem, List.map_cons, List.mem_cons, or_true, if_true]
          · simp only [hmem, List.map_cons, List.mem_cons, hne, or_false, if_false,
              List.cons_append]

/-- What one more value makes of an entry: a new entry, or the same one with a greater count. -/
theorem mem_countOne {value key : UInt64} {count : Nat} {counts : List (UInt64 × Nat)}
    (hdistinct : (counts.map Prod.fst).Nodup) :
    (key, count) ∈ countOne value counts ↔
      (key ≠ value ∧ (key, count) ∈ counts) ∨
      (key = value ∧ (∃ before, (value, before) ∈ counts ∧ count = before + 1)) ∨
      (key = value ∧ value ∉ counts.map Prod.fst ∧ count = 1) := by
  induction counts with
  | nil => simp [countOne]
  | cons entry rest ih =>
      obtain ⟨key', count'⟩ := entry
      rw [List.map_cons, List.nodup_cons] at hdistinct
      have ih := ih hdistinct.2
      rw [countOne]
      split
      · next hkey =>
          subst hkey
          grind
      · next hkey => grind

/-- The keys are the values that were counted. -/
theorem Tallies.mem_map_fst_iff {counts : List (UInt64 × Nat)} {values : List UInt64}
    (h : Tallies counts values) {key : UInt64} : key ∈ counts.map Prod.fst ↔ key ∈ values := by
  constructor
  · intro hkey
    obtain ⟨⟨_, count⟩, hmem, rfl⟩ := List.mem_map.1 hkey
    exact ((h.exact _ count).1 hmem).1
  · intro hkey
    exact List.mem_map_of_mem ((h.exact key _).2 ⟨hkey, rfl⟩)

theorem Tallies.countOne {counts : List (UInt64 × Nat)} {values : List UInt64}
    (h : Tallies counts values) (value : UInt64) :
    Tallies (countOne value counts) (values ++ [value]) := by
  have hkeys : ∀ key, key ∈ counts.map Prod.fst ↔ key ∈ values := fun _ => h.mem_map_fst_iff
  constructor
  · rw [map_fst_countOne]
    split
    · exact h.distinct
    · next hnew => exact List.nodup_append.2 ⟨h.distinct, by simp, by grind⟩
  · intro key count
    simp only [mem_countOne h.distinct, h.exact, hkeys, List.mem_append, List.mem_singleton,
      List.count_append]
    by_cases hkey : key = value
    · subst hkey
      by_cases hmem : key ∈ values
      · simp [hmem]
      · simp [hmem, List.count_eq_zero_of_not_mem hmem]
    · have hzero : [value].count key = 0 := List.count_eq_zero_of_not_mem (by simp [hkey])
      simp [hkey, hzero]

/-- A tally holds each value once, with the number of times it appears. -/
theorem tallies_tally (values : List UInt64) : Tallies (tally values) values := by
  induction values using List.reverseRecOn with
  | nil => exact ⟨by simp [tally], by simp [tally]⟩
  | append_singleton values value ih =>
      rw [tally_concat]
      exact ih.countOne value

/-- The keys are some of the values, in the same order. -/
theorem sublist_map_fst_tally (values : List UInt64) :
    List.Sublist ((tally values).map Prod.fst) values := by
  induction values using List.reverseRecOn with
  | nil => exact List.Sublist.refl []
  | append_singleton values value ih =>
      rw [tally_concat, map_fst_countOne]
      split
      · exact ih.trans (List.sublist_append_left values [value])
      · exact ih.append (List.Sublist.refl [value])

/-! ## Order -/

/-- The keys stand in the order in which they first appear among the values. -/
def InFirstOrder (keys values : List UInt64) : Prop :=
  keys.Pairwise fun earlier later => values.idxOf earlier < values.idxOf later

/-- A value that was there before keeps its first place, and a new one first appears behind all
the others. -/
theorem InFirstOrder.concat {keys values : List UInt64} (h : InFirstOrder keys values)
    (hkeys : ∀ key, key ∈ keys ↔ key ∈ values) (value : UInt64) :
    InFirstOrder (if value ∈ keys then keys else keys ++ [value]) (values ++ [value]) := by
  have hkept : ∀ key ∈ keys, (values ++ [value]).idxOf key = values.idxOf key :=
    fun key hkey => List.idxOf_append_of_mem ((hkeys key).1 hkey)
  have hold : InFirstOrder keys (values ++ [value]) := by
    refine List.Pairwise.imp_of_mem ?_ h
    intro earlier later hearlier hlater hlt
    rw [hkept earlier hearlier, hkept later hlater]
    exact hlt
  split
  · exact hold
  · next hnew =>
      refine List.pairwise_append.2 ⟨hold, List.pairwise_singleton _ _, ?_⟩
      intro key hkey other hother
      have hlt : values.idxOf key < values.length :=
        List.idxOf_lt_length_of_mem ((hkeys key).1 hkey)
      rw [List.mem_singleton.1 hother, hkept key hkey,
        List.idxOf_append_of_notMem fun hmem => hnew ((hkeys value).2 hmem)]
      omega

theorem inFirstOrder_tally (values : List UInt64) :
    InFirstOrder ((tally values).map Prod.fst) values := by
  induction values using List.reverseRecOn with
  | nil => exact List.Pairwise.nil
  | append_singleton values value ih =>
      rw [tally_concat, map_fst_countOne]
      exact ih.concat (fun _ => (tallies_tally values).mem_map_fst_iff) value

/-! ## Products -/

section

variable {M : Type} [CommMonoid M] (f : UInt64 → M)

/-- Counting one more value multiplies a product over the counts by the value. -/
theorem prod_countOne (value : UInt64) (counts : List (UInt64 × Nat)) :
    ((countOne value counts).map fun entry => f entry.1 ^ entry.2).prod =
      (counts.map fun entry => f entry.1 ^ entry.2).prod * f value := by
  induction counts with
  | nil => simp [countOne]
  | cons entry rest ih =>
      obtain ⟨key, count⟩ := entry
      rw [countOne]
      split
      · next hkey =>
          subst hkey
          simp only [List.map_cons, List.prod_cons, pow_succ]
          rw [mul_right_comm]
      · rw [List.map_cons, List.prod_cons, ih, List.map_cons, List.prod_cons, mul_assoc]

/-- A product over the counts is a product over the values that were counted. -/
theorem prod_tally (values : List UInt64) :
    ((tally values).map fun entry => f entry.1 ^ entry.2).prod = (values.map f).prod := by
  induction values using List.reverseRecOn with
  | nil => simp [tally]
  | append_singleton values value ih =>
      rw [tally_concat, prod_countOne, ih, List.map_append, List.prod_append]
      simp

end

/-! ## Sums -/

theorem Tallies.map_snd {counts : List (UInt64 × Nat)} {values : List UInt64}
    (h : Tallies counts values) :
    counts.map Prod.snd = (counts.map Prod.fst).map fun key => values.count key := by
  rw [List.map_map]
  exact List.map_congr_left fun entry hentry => ((h.exact entry.1 entry.2).1 hentry).2

/-- The counts add up to the number of values. -/
theorem Tallies.sum_eq {counts : List (UInt64 × Nat)} {values : List UInt64}
    (h : Tallies counts values) : (counts.map Prod.snd).sum = values.length := by
  have hkeys : List.Perm (counts.map Prod.fst) values.dedup :=
    (List.perm_ext_iff_of_nodup h.distinct values.nodup_dedup).2 fun key => by
      rw [h.mem_map_fst_iff, List.mem_dedup]
  rw [h.map_snd, (hkeys.map _).sum_eq, List.sum_map_count_dedup_eq_length]

/-! ## Counts of 32 bits -/

/-- One more of a value, where a count is a word of 32 bits that starts over when it is full. -/
def countOneWord (value : UInt64) : List (UInt64 × UInt32) → List (UInt64 × UInt32)
  | [] => [(value, 1)]
  | (key, count) :: rest =>
      if key = value then (key, count + 1) :: rest else (key, count) :: countOneWord value rest

/-- The distinct values in order of first appearance, each with the number of times it appears as
a word of 32 bits. -/
def tallyWords (values : List UInt64) : List (UInt64 × UInt32) :=
  values.foldl (fun counts value => countOneWord value counts) []

/-- The count as a word of 32 bits. -/
def narrowed (entry : UInt64 × Nat) : UInt64 × UInt32 := (entry.1, .ofNat entry.2)

/-- The count as a number. -/
def widened (entry : UInt64 × UInt32) : UInt64 × Nat := (entry.1, entry.2.toNat)

theorem countOneWord_map_narrowed (value : UInt64) (counts : List (UInt64 × Nat)) :
    countOneWord value (counts.map narrowed) = (countOne value counts).map narrowed := by
  induction counts with
  | nil => rfl
  | cons entry rest ih =>
      obtain ⟨key, count⟩ := entry
      rw [List.map_cons, narrowed, countOneWord, countOne]
      split
      · rw [List.map_cons, narrowed, UInt32.ofNat_add]
        rfl
      · rw [ih]
        rfl

theorem tallyWords_eq (values : List UInt64) :
    tallyWords values = (tally values).map narrowed := by
  show values.foldl (fun counts value => countOneWord value counts) (List.map narrowed []) = _
  exact List.foldl_hom (List.map narrowed) fun counts value =>
    countOneWord_map_narrowed value counts

theorem map_fst_tallyWords (values : List UInt64) :
    (tallyWords values).map Prod.fst = (tally values).map Prod.fst := by
  rw [tallyWords_eq, List.map_map]
  rfl

/-- No count of a short list is too great for 32 bits. -/
theorem map_widened_tallyWords {values : List UInt64} (h : values.length < 2 ^ 32) :
    (tallyWords values).map widened = tally values := by
  rw [tallyWords_eq, List.map_map]
  refine (List.map_congr_left fun entry hentry => ?_).trans (List.map_id _)
  obtain ⟨-, hcount⟩ := ((tallies_tally values).exact entry.1 entry.2).1 hentry
  have hlt : entry.2 < 2 ^ 32 := by
    rw [hcount]
    exact List.count_le_length.trans_lt h
  exact Prod.ext rfl (UInt32.toNat_ofNat_of_lt' hlt)

/-! ## The tally -/

/-- The counts are a complete account of the values: each value once, in the order in which they
first appear, with the number of times it appears, and nothing is counted twice or left out. -/
structure AccountsFor (counts : List (UInt64 × Nat)) (values : List UInt64) : Prop
    extends Tallies counts values where
  inOrder : InFirstOrder (counts.map Prod.fst) values
  total : (counts.map Prod.snd).sum = values.length

/-- A tally accounts for the values in whatever order they stand. With counts of 32 bits it has the
same keys, and the same counts if the list is shorter than the greatest of them. -/
theorem tally_accountsFor (values : List UInt64) :
    AccountsFor (tally values) values ∧
      (tallyWords values).map Prod.fst = (tally values).map Prod.fst ∧
      (values.length < 2 ^ 32 → (tallyWords values).map widened = tally values) :=
  ⟨⟨tallies_tally values, inFirstOrder_tally values, (tallies_tally values).sum_eq⟩,
    map_fst_tallyWords values, map_widened_tallyWords⟩

/-- Values that come back after others, the greatest first. -/
theorem tally_accountsFor_unsorted :
    [7, 2, 7, 5, 2, 7].length < 2 ^ 32 ∧
      AccountsFor (tally [7, 2, 7, 5, 2, 7]) [7, 2, 7, 5, 2, 7] ∧
      (tallyWords [7, 2, 7, 5, 2, 7]).map widened = tally [7, 2, 7, 5, 2, 7] ∧
      tally [7, 2, 7, 5, 2, 7] = [(7, 3), (2, 2), (5, 1)] := by
  obtain ⟨haccounts, -, hwords⟩ := tally_accountsFor [7, 2, 7, 5, 2, 7]
  exact ⟨by decide, haccounts, hwords (by decide), by decide⟩

end Stepwise
