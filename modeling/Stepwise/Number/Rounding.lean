set_option autoImplicit false

/-! # Rounding a ratio, and the integer square root

Exact arithmetic on natural numbers with one decision in it: to which integer a ratio is
rounded. `roundRatio` takes the nearest one, and a `Tie` says where a value halfway between
two integers goes. `floorRoot` is the integer part of a square root, found one binary digit
at a time.
-/

namespace Stepwise

-- the powers of numbers are the built-in ones, whatever else is in scope
attribute [instance (100000), default_instance 100000] instPowNat

/-- Where a value halfway between two integers is rounded. -/
inductive Tie
  /-- To the even one of the two. -/
  | toEven
  /-- To the greater one. -/
  | up
  deriving DecidableEq, Repr

/-- The integer nearest to `num / den`. -/
def roundRatio (tie : Tie) (num den : Nat) : Nat :=
  let low := num / den
  let twice := 2 * (num % den)
  if twice < den then low
  else if den < twice then low + 1
  else match tie with
    | .toEven => low + low % 2
    | .up => low + 1

theorem le_roundRatio (tie : Tie) (num den : Nat) : num / den ≤ roundRatio tie num den := by
  unfold roundRatio
  dsimp only
  split
  · omega
  · split
    · omega
    · split <;> omega

theorem roundRatio_le (tie : Tie) (num den : Nat) :
    roundRatio tie num den ≤ num / den + 1 := by
  unfold roundRatio
  dsimp only
  split
  · omega
  · split
    · omega
    · split <;> omega

/-! ## Square roots -/

/-- The first `k` binary digits of the square root of a number below `4 ^ k`. -/
def rootDigits : Nat → Nat → Nat
  | 0, _ => 0
  | k + 1, n =>
      let r := 2 * rootDigits k (n / 4)
      if (r + 1) * (r + 1) ≤ n then r + 1 else r

/-- The integer part of the square root. -/
def floorRoot (n : Nat) : Nat := rootDigits (n.log2 / 2 + 1) n

theorem rootDigits_spec (k n : Nat) (h : n < 4 ^ k) :
    rootDigits k n * rootDigits k n ≤ n ∧
      n < (rootDigits k n + 1) * (rootDigits k n + 1) := by
  induction k generalizing n with
  | zero => simp at h; simp [rootDigits, h]
  | succ k ih =>
      have hq : n / 4 < 4 ^ k := by
        rw [Nat.pow_succ] at h; omega
      -- `q` is the root of the quarter, so the root itself is `2 * q` or one more
      obtain ⟨low, high⟩ := ih (n / 4) hq
      rw [rootDigits]
      generalize rootDigits k (n / 4) = q at low high ⊢
      have e1 : 2 * q * (2 * q) = 4 * (q * q) := by
        rw [Nat.mul_mul_mul_comm]
      have e2 : (2 * q + 1 + 1) * (2 * q + 1 + 1) = 4 * ((q + 1) * (q + 1)) := by
        rw [show 2 * q + 1 + 1 = 2 * (q + 1) by omega, Nat.mul_mul_mul_comm]
      split
      · next hle => exact ⟨hle, by rw [e2]; omega⟩
      · next hlt => exact ⟨by rw [e1]; omega, by omega⟩

theorem lt_four_pow_log2 (n : Nat) : n < 4 ^ (n.log2 / 2 + 1) := by
  -- a number has one binary digit more than its logarithm says
  have h : n < 2 ^ (n.log2 + 1) := Nat.lt_log2_self
  refine Nat.lt_of_lt_of_le h ?_
  rw [show 4 = 2 ^ 2 from rfl, ← Nat.pow_mul]
  exact Nat.pow_le_pow_right (by decide) (by omega)

theorem floorRoot_mul_self_le (n : Nat) : floorRoot n * floorRoot n ≤ n :=
  (rootDigits_spec _ n (lt_four_pow_log2 n)).1

end Stepwise
