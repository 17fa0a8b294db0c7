import Mathlib.Algebra.Order.Ring.Nat
import Stepwise.Prime

set_option autoImplicit false

/-! # Operations on words that are checked

An operation on words with a check in front of it: it has a result exactly if the exact result is
a word, or, for a quotient and a remainder, if the divisor is not zero. A computation made of such
operations has a result only if none of them leaves the word.
-/

namespace Stepwise

/-! ## Values of words -/

/-- A number that is at most a word is the value of a word. -/
theorem exists_toNat_eq {n : Nat} {bound : UInt64} (h : n ≤ bound.toNat) :
    ∃ word : UInt64, word.toNat = n :=
  ⟨.ofNat n, UInt64.toNat_ofNat_of_lt' (Nat.lt_of_le_of_lt h bound.toNat_lt)⟩

theorem toNat_pow (base : UInt64) (exponent : Nat) :
    (base ^ exponent).toNat = base.toNat ^ exponent % 2 ^ 64 := by
  induction exponent with
  | zero => rfl
  | succ k ih => rw [UInt64.pow_succ, UInt64.toNat_mul, ih, pow_succ base.toNat k, Nat.mod_mul_mod]

/-! ## Sums, products and powers -/

/-- A computed word, if the exact result is a word. -/
def ifExact (exact : Nat) (word : UInt64) : Option UInt64 :=
  if exact < 2 ^ 64 then some word else none

/-- The sum of two words, if it is a word. -/
def checkedAdd (a b : UInt64) : Option UInt64 :=
  ifExact (a.toNat + b.toNat) (a + b)

/-- The product of two words, if it is a word. -/
def checkedMul (a b : UInt64) : Option UInt64 :=
  ifExact (a.toNat * b.toNat) (a * b)

/-- The power of a word, if it is a word. -/
def checkedPow (base : UInt64) (exponent : Nat) : Option UInt64 :=
  ifExact (base.toNat ^ exponent) (base ^ exponent)

theorem eq_of_ifExact {exact : Nat} {word result : UInt64}
    (h : ifExact exact word = some result) : word = result := by
  rw [ifExact] at h
  split at h
  · exact Option.some.inj h
  · cases h

theorem ifExact_eq_some_iff {exact : Nat} {word result : UInt64}
    (hword : word.toNat = exact % 2 ^ 64) :
    ifExact exact word = some result ↔ result.toNat = exact := by
  constructor
  · intro h
    have heq := eq_of_ifExact h
    rw [ifExact] at h
    split at h
    · next hlt => rw [← heq, hword, Nat.mod_eq_of_lt hlt]
    · cases h
  · intro h
    have hlt : exact < 2 ^ 64 := h ▸ result.toNat_lt
    rw [ifExact, if_pos hlt, Option.some_inj, ← UInt64.toNat_inj, hword, Nat.mod_eq_of_lt hlt, h]

theorem checkedAdd_eq_some_iff {a b result : UInt64} :
    checkedAdd a b = some result ↔ result.toNat = a.toNat + b.toNat :=
  ifExact_eq_some_iff (UInt64.toNat_add a b)

theorem checkedMul_eq_some_iff {a b result : UInt64} :
    checkedMul a b = some result ↔ result.toNat = a.toNat * b.toNat :=
  ifExact_eq_some_iff (UInt64.toNat_mul a b)

theorem checkedPow_eq_some_iff {base result : UInt64} {exponent : Nat} :
    checkedPow base exponent = some result ↔ result.toNat = base.toNat ^ exponent :=
  ifExact_eq_some_iff (toNat_pow base exponent)

/-! ## Quotients and remainders -/

/-- The quotient of two words, if there is one. -/
def checkedDiv (a b : UInt64) : Option UInt64 := if b = 0 then none else some (a / b)

/-- The remainder of a division of words, if there is one. -/
def checkedMod (a b : UInt64) : Option UInt64 := if b = 0 then none else some (a % b)

theorem checkedDiv_eq_some {b : UInt64} (h : b ≠ 0) (a : UInt64) :
    checkedDiv a b = some (a / b) := if_neg h

theorem checkedMod_eq_some {b : UInt64} (h : b ≠ 0) (a : UInt64) :
    checkedMod a b = some (a % b) := if_neg h

end Stepwise
