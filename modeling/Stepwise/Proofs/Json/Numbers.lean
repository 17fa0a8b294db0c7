import Stepwise.Proofs.Json.Documents
import Stepwise.Proofs.PlainNumerals

set_option autoImplicit false

/-! # The number of a JSON numeral

A JSON numeral stands for a decimal, its digits scaled by the power of ten that its point and its
exponent make (`JsonNumeral.decimal`). The numeral that a decimal is written as stands for the same
number, however it is laid out (`nearest_ofDecimal`), so whoever takes the nearest binary64 number
gets every finite number back from the numeral it was written as (`nearest?_ofBinary64`).
-/

namespace Stepwise

/-! ## Equal ratios -/

section

variable {factor : Nat} (hfactor : 0 < factor) (num den : Nat)
include hfactor

theorem roundRatio_mul_right (tie : Tie) :
    roundRatio tie (num * factor) (den * factor) = roundRatio tie num den := by
  unfold roundRatio
  rw [Nat.mul_div_mul_right num den hfactor, Nat.mul_mod_mul_right, ← Nat.mul_assoc]
  simp only [Nat.mul_lt_mul_right hfactor]

theorem roundUnits_mul_right : roundUnits (num * factor) (den * factor) = roundUnits num den := by
  have hshift : roundingShift (num * factor) (den * factor) = roundingShift num den := by
    rw [roundingShift, roundingShift, Nat.mul_div_mul_right num den hfactor]
  unfold roundUnits
  simp only [hshift, Nat.mul_right_comm den factor, roundRatio_mul_right hfactor]

/-- The number nearest to a ratio does not depend on the terms of the ratio. -/
theorem Binary64.ofRatio_mul_right (negative : Bool) :
    ofRatio negative (num * factor) (den * factor) = ofRatio negative num den := by
  have hunits := roundUnits_mul_right hfactor num den
  simp only [ofRatio, hunits]

end

/-! ## Decimals -/

namespace Decimal

theorem toBinary64_zero (negative : Bool) (exponent : Int) :
    toBinary64 negative ⟨0, exponent⟩ = .zero negative := by
  cases exponent with
  | ofNat k => simp [toBinary64, Binary64.zero]
  | negSucc k =>
      have hpos : 0 < 10 ^ (k + 1) := Nat.pow_pos (by decide)
      simpa [toBinary64, Binary64.zero] using Binary64.ofRatio_mul_right hpos 0 1 negative

/-- A whole number with one zero behind its point. -/
theorem toBinary64_tenths (negative : Bool) (digits k : Nat) :
    toBinary64 negative ⟨digits * 10 ^ k * 10, -1⟩ = toBinary64 negative ⟨digits, k⟩ := by
  show Binary64.ofRatio negative (digits * 10 ^ k * 10 * unitsPerOne) 10 =
    Binary64.ofRatio negative (digits * 10 ^ k * unitsPerOne) 1
  rw [Nat.mul_right_comm, ← Nat.one_mul 10, Binary64.ofRatio_mul_right (by decide)]

end Decimal

namespace JsonNumeral

/-- The power of ten that the exponent writes. -/
def power (n : JsonNumeral) : Int :=
  match n.exponent with
  | none => 0
  | some (negative, digits) =>
      let size : Int := Nat.ofDigitChars 10 digits 0
      if negative then -size else size

/-- The decimal of a numeral, without its sign. -/
def decimal (n : JsonNumeral) : Decimal :=
  ⟨Nat.ofDigitChars 10 (n.whole ++ n.fraction) 0, n.power - n.fraction.length⟩

/-- The binary64 number nearest to a numeral. -/
def nearest (n : JsonNumeral) : Binary64 := n.decimal.toBinary64 n.negative

theorem nearest_eq {n : JsonNumeral} {digits : Nat} {exponent : Int}
    (hdigits : Nat.ofDigitChars 10 (n.whole ++ n.fraction) 0 = digits)
    (hexponent : n.power - n.fraction.length = exponent) :
    n.nearest = Decimal.toBinary64 n.negative ⟨digits, exponent⟩ := by
  rw [nearest, decimal, hdigits, hexponent]

theorem power_none (negative : Bool) (whole fraction : Text) :
    power { negative, whole, fraction } = 0 := rfl

theorem power_toDigits (negative : Bool) (whole fraction : Text) (exponent : Int) :
    power { negative, whole, fraction,
            exponent := some (exponent < 0, Nat.toDigits 10 exponent.natAbs) } = exponent := by
  rw [power]
  dsimp only
  rw [Nat.ofDigitChars_ten_toDigits]
  simp only [decide_eq_true_eq]
  split <;> omega

/-- However a decimal is laid out, its numeral stands for the same number. -/
theorem nearest_ofDecimal (negative : Bool) (d : Decimal) :
    (ofDecimal negative d).nearest = d.toBinary64 negative := by
  obtain ⟨digits, exponent⟩ := d
  have hvalue : Nat.ofDigitChars 10 (Nat.toDigits 10 digits) 0 = digits :=
    Nat.ofDigitChars_ten_toDigits
  have hlength : 0 < (Nat.toDigits 10 digits).length := List.length_pos_iff.2 Nat.toDigits_ne_nil
  unfold ofDecimal
  dsimp only
  split
  · next hzero =>
      show Decimal.toBinary64 negative ⟨0, -1⟩ = _
      rw [hzero, Decimal.toBinary64_zero, Decimal.toBinary64_zero]
  split
  · next hwhole =>
      obtain ⟨k, rfl⟩ := Int.eq_ofNat_of_zero_le hwhole.1
      rw [← Decimal.toBinary64_tenths]
      refine nearest_eq ?_ rfl
      rw [Int.toNat_natCast, Nat.ofDigitChars_append, Nat.ofDigitChars_append, hvalue,
        Nat.ofDigitChars_replicate_zero, Nat.mul_comm (10 ^ k)]
      simp [Nat.ofDigitChars, Nat.mul_comm]
  split
  · refine nearest_eq ?_ ?_
    · rw [List.take_append_drop, hvalue]
    · rw [power_none, List.length_drop]
      omega
  split
  · refine nearest_eq ?_ ?_
    · have hhead : Nat.ofDigitChars 10 ['0'] 0 = 0 := rfl
      rw [Nat.ofDigitChars_append, Nat.ofDigitChars_append, hhead,
        Nat.ofDigitChars_replicate_zero, Nat.mul_zero, hvalue]
    · rw [power_none, List.length_append, List.length_replicate]
      omega
  · refine nearest_eq ?_ ?_
    · rw [List.take_append_drop, hvalue]
    · rw [power_toDigits, List.length_drop]
      omega

end JsonNumeral

/-! ## Numbers -/

/-- The reader of numbers that takes the nearest one. -/
def JsonValue.nearest? : JsonValue → Option Binary64
  | .number n => some n.nearest
  | _ => none

/-- Every finite number is read back from its numeral, if the nearest number is taken. -/
theorem nearest?_ofBinary64 {x : Binary64} (hx : x.isFinite = true) :
    JsonValue.nearest? (.ofBinary64 x) = some x := by
  cases x with
  | finite negative m =>
      rw [JsonValue.ofBinary64, JsonValue.nearest?, JsonNumeral.nearest_ofDecimal,
        m.toBinary64_shortest]
  | infinite negative => cases hx
  | nan => cases hx

end Stepwise
