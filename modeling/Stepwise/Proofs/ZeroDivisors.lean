import Stepwise.Proofs.Radicands
import Stepwise.Proofs.SameNumber
import Stepwise.Proofs.SingleOperation

set_option autoImplicit false

/-! # Divisors that are read as zero

Whether an operation divides by zero is decided by the number that the divisor is read as. A literal
is read as the nearest binary64 number, and the least positive one is `2^-1074`. So a literal is
read as zero up to half of that (`Literal.isZero_toBinary64_iff`), and not only if all of its digits
are zeros. It takes 324 digits behind the point to come so close to zero without being zero.
-/

namespace Stepwise

/-! ## The digits of a literal -/

namespace Literal

/-- The digits before and behind the point. -/
def digits (l : Literal) : Text := l.whole ++ l.fraction.getD []

/-- The number of digits behind the point. -/
def places (l : Literal) : Nat := (l.fraction.getD []).length

theorem IsDecimal.allDigits {l : Literal} (h : l.IsDecimal) : AllDigits l.digits :=
  List.forall_mem_append.2 ⟨h.allDigits_whole, h.allDigits_fraction⟩

/-- The size of a literal is the number that its digits stand for, with the point put in. -/
theorem abs_value (l : Literal) :
    |l.value| = (Nat.ofDigitChars 10 l.digits 0 : ℚ) / 10 ^ l.places := by
  have hpower : (0 : ℚ) < 10 ^ l.places := by positivity
  have hdigits : Nat.ofDigitChars 10 l.digits 0 = 10 ^ l.places * Nat.ofDigitChars 10 l.whole 0 +
      Nat.ofDigitChars 10 (l.fraction.getD []) 0 := by
    rw [digits, Nat.ofDigitChars_append, Nat.ofDigitChars_eq_ofDigitChars_zero, places]
  have hsize : (Nat.ofDigitChars 10 l.whole 0 : ℚ) +
      Nat.ofDigitChars 10 (l.fraction.getD []) 0 / 10 ^ l.places =
        Nat.ofDigitChars 10 l.digits 0 / 10 ^ l.places := by
    rw [hdigits, Nat.cast_add, Nat.cast_mul, Nat.cast_pow, Nat.cast_ofNat, add_div,
      mul_div_cancel_left₀ _ hpower.ne']
  have habs : |l.value| = |(Nat.ofDigitChars 10 l.digits 0 : ℚ) / 10 ^ l.places| := by
    rw [← hsize]
    unfold value
    dsimp only [places]
    split
    · exact abs_neg _
    · rfl
  rw [habs, abs_of_nonneg (by positivity)]

/-- The literals of the number zero are those of zeros. -/
theorem IsDecimal.value_eq_zero_iff {l : Literal} (h : l.IsDecimal) :
    l.value = 0 ↔ ∀ c ∈ l.digits, c = '0' := by
  have hpower : (10 : ℚ) ^ l.places ≠ 0 := by positivity
  have hzeros : isAllZeros l.digits = true ↔ ∀ c ∈ l.digits, c = '0' := by
    simp [isAllZeros]
  rw [← abs_eq_zero, abs_value, div_eq_zero_iff, or_iff_left hpower, Nat.cast_eq_zero,
    ← isAllZeros_iff h.allDigits, hzeros]

/-! ## Reading a literal -/

theorem toBinary64_eq_ofRatio (l : Literal) :
    l.toBinary64 =
      .ofRatio l.negative (Nat.ofDigitChars 10 l.digits 0 * unitsPerOne) (10 ^ l.places) := by
  have hdecimal : l.decimal = ⟨Nat.ofDigitChars 10 l.digits 0, -l.places⟩ := rfl
  rw [toBinary64, hdecimal, Decimal.toBinary64]
  cases l.places with
  | zero => simp
  | succ k => rfl

end Literal

theorem two_pow_eq_units {exponent : Nat} (h : exponent = 1074) :
    (2 : ℚ) ^ (exponent + 1) = ((2 * unitsPerOne : ℕ) : ℚ) := by
  rw [unitsPerOne_eq_two_pow h, pow_succ', Nat.cast_mul, Nat.cast_pow, Nat.cast_ofNat]

/-- A literal is read as zero up to half of the least positive number. -/
theorem Literal.isZero_toBinary64_iff (l : Literal) :
    l.toBinary64.isZero = true ↔ |l.value| ≤ 1 / 2 ^ 1075 := by
  have hpower : (0 : ℚ) < 10 ^ l.places := by positivity
  have hunitsPos : (0 : ℚ) < ((2 * unitsPerOne : ℕ) : ℚ) := by
    exact_mod_cast Nat.mul_pos two_pos unitsPerOne_pos
  calc l.toBinary64.isZero = true
      ↔ 2 * (Nat.ofDigitChars 10 l.digits 0 * unitsPerOne) ≤ 10 ^ l.places := by
        rw [l.toBinary64_eq_ofRatio, Binary64.isZero_ofRatio_iff,
          roundUnits_eq_zero_iff (Nat.pow_pos (by decide))]
    _ ↔ (Nat.ofDigitChars 10 l.digits 0 : ℚ) * ((2 * unitsPerOne : ℕ) : ℚ) ≤
          1 * 10 ^ l.places := by
        rw [Nat.mul_left_comm, one_mul]
        exact_mod_cast Iff.rfl
    _ ↔ |l.value| ≤ 1 / 2 ^ 1075 := by
        rw [l.abs_value, @two_pow_eq_units 1074 rfl, div_le_div_iff₀ hpower hunitsPos]

/-- With 323 digits behind the point or less, only zero is read as zero. -/
theorem Literal.abs_value_le_iff {l : Literal} (h : l.places ≤ 323) :
    |l.value| ≤ 1 / 2 ^ 1075 ↔ l.value = 0 := by
  constructor
  · intro hle
    by_contra hne
    rw [l.abs_value] at hle
    have hpos : 0 < Nat.ofDigitChars 10 l.digits 0 := by
      refine Nat.pos_of_ne_zero fun hzero => hne ?_
      rw [← abs_eq_zero, l.abs_value, hzero, Nat.cast_zero, zero_div]
    have hlarge : 10 ^ l.places < 2 ^ 1075 := by
      calc 10 ^ l.places ≤ 10 ^ 323 := Nat.pow_le_pow_right (by decide) h
        _ < 2 ^ 1075 := by decide +kernel
    rw [div_le_div_iff₀ (by positivity) (by positivity), one_mul] at hle
    have hle : Nat.ofDigitChars 10 l.digits 0 * 2 ^ 1075 ≤ 10 ^ l.places := by exact_mod_cast hle
    have hmul := Nat.le_mul_of_pos_left (2 ^ 1075) hpos
    omega
  · intro hzero
    rw [hzero, abs_zero]
    positivity

/-! ## The last step of an operation -/

theorem title_computeStep_iff (o : BinaryOperation) :
    (computeStep o).title = "Check division by zero" ↔ o.op = .div ∧ o.right.isZero = true := by
  unfold computeStep
  split
  · next hzero => exact iff_of_true rfl hzero
  · next hnonzero =>
      refine iff_of_false ?_ hnonzero
      dsimp only
      split <;> simp [overflowStep]

/-- The explanation of an operation ends with the check for a division by zero exactly if it divides
by a literal whose size is at most half of the least positive number. These are the literals of
zeros, and no others that have at most 323 digits behind the point. -/
theorem explainOperation_checksDivision {t : Text} {left right : Literal} {op : Operator}
    {o : BinaryOperation} (hshape : OperationText left op right t)
    (hread : parseOperation t = .ok o) :
    ((explainOperation o).steps.getLast?.map Step.title = some "Check division by zero" ↔
      op = .div ∧ |right.value| ≤ 1 / 2 ^ 1075) ∧
    (right.value = 0 ↔ ∀ c ∈ right.digits, c = '0') ∧
    (right.places ≤ 323 → (|right.value| ≤ 1 / 2 ^ 1075 ↔ ∀ c ∈ right.digits, c = '0')) := by
  obtain ⟨left', right', hshape', -, hvalue, -, -⟩ := parseOperation_eq_ok_iff.1 hread
  obtain ⟨-, rfl, rfl⟩ := hshape'.unique hshape
  have hzero : right'.value = 0 ↔ ∀ c ∈ right'.digits, c = '0' := by
    cases hshape with
    | intro _ _ _ _ hdecimal _ => exact hdecimal.value_eq_zero_iff
  refine ⟨?_, hzero, fun hplaces => (Literal.abs_value_le_iff hplaces).trans hzero⟩
  rw [explainOperation_getLast?, Option.map_some, Option.some_inj, title_computeStep_iff, ← hvalue,
    Literal.isZero_toBinary64_iff]

/-- Negative zero as a divisor. -/
theorem explainOperation_checksDivision_negative_zero :
    OperationText ⟨false, ['5'], none⟩ .div ⟨true, ['0'], some ['0']⟩ "5 / -0.0".toList ∧
      parseOperation "5 / -0.0".toList = .ok ⟨.ofNat 5, .div, .zero true⟩ ∧
      (explainOperation ⟨.ofNat 5, .div, .zero true⟩).steps.getLast?.map Step.title =
        some "Check division by zero" := by
  have hshape : OperationText ⟨false, ['5'], none⟩ .div ⟨true, ['0'], some ['0']⟩
      "5 / -0.0".toList := splitOperation_eq_ok_iff.1 (by decide +kernel)
  have hread : parseOperation "5 / -0.0".toList = .ok ⟨.ofNat 5, .div, .zero true⟩ := by
    decide +kernel
  obtain ⟨hlast, -, hdigits⟩ := explainOperation_checksDivision hshape hread
  have hzeros : ∀ c ∈ Literal.digits ⟨true, ['0'], some ['0']⟩, c = '0' := by
    simp [Literal.digits]
  exact ⟨hshape, hread, hlast.2 ⟨rfl, (hdigits (by decide)).2 hzeros⟩⟩

/-- A one in the 324th place behind the point. -/
def Literal.tiny : Literal := ⟨false, ['0'], some (List.replicate 323 '0' ++ ['1'])⟩

/-- A divisor that is not zero, and yet the explanation ends with the check. -/
theorem checksDivision_tiny :
    OperationText ⟨false, ['1'], none⟩ .div .tiny (['1', '/'] ++ Literal.tiny.text) ∧
      parseOperation (['1', '/'] ++ Literal.tiny.text) = .ok ⟨.ofNat 1, .div, .zero false⟩ ∧
      (explainOperation ⟨.ofNat 1, .div, .zero false⟩).steps.getLast?.map Step.title =
        some "Check division by zero" ∧
      ¬ ∀ c ∈ Literal.tiny.digits, c = '0' := by
  have hshape : OperationText ⟨false, ['1'], none⟩ .div .tiny (['1', '/'] ++ Literal.tiny.text) :=
    splitOperation_eq_ok_iff.1 (by decide +kernel)
  refine ⟨hshape, by decide +kernel, by decide +kernel, fun hzeros => ?_⟩
  have hone : '1' ∈ Literal.tiny.digits :=
    List.mem_append_right _ (List.mem_append_right _ (List.mem_singleton_self _))
  exact absurd (hzeros '1' hone) (by decide)

end Stepwise
