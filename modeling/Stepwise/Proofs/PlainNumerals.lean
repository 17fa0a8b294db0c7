import Stepwise.Proofs.Numerals
import Stepwise.Proofs.SameNumber
import Stepwise.Proofs.SingleOperation

set_option autoImplicit false

/-! # The numerals of finite numbers

The numeral of a finite number is the text of a decimal literal, and reading it gives the number
back (`exists_literal_plain`). The search for the shortest decimal tests each candidate, so what it
finds reads back; what it falls back on is the number itself, written out to the last place. In an
explanation both zeros are shown as `0`, so there the literal is the same number, but for the sign of
a zero (`exists_literal_shown`).
-/

namespace Stepwise

/-! ## The shortest decimal -/

theorem five_pow_mul_unitsPerOne {exponent : Nat} (h : exponent = 1074) :
    5 ^ 1074 * unitsPerOne = 10 ^ exponent := by
  rw [← h, unitsPerOne_eq_two_pow h, ← Nat.mul_pow]

namespace Magnitude

variable (m : Magnitude)

theorem ofRatio_mul {den : Nat} (hden : 0 < den) :
    Binary64.ofRatio false (m.units * den) den = .finite false m := by
  have hunits := roundUnits_of_short hden m.short
  rw [Binary64.ofRatio, dif_pos (by rw [hunits]; exact m.bounded)]
  congr

/-- The magnitude written out to the last place reads back. -/
theorem readsBack_exactDecimal : m.ReadsBack m.exactDecimal := by
  unfold ReadsBack exactDecimal Decimal.toBinary64
  dsimp only
  split
  · next k h =>
      rw [Int.ofNat_eq_natCast] at h
      omega
  · next k h =>
      rw [Nat.mul_assoc, five_pow_mul_unitsPerOne (show k + 1 = 1074 by omega)]
      exact m.ofRatio_mul (Nat.pow_pos (by decide))

theorem readsBack_of_onGrid? {tie : Tie} {exponent : Int} {d : Decimal}
    (h : m.onGrid? tie exponent = some d) : m.ReadsBack d := by
  unfold onGrid? at h
  simpa using List.find?_some h

theorem readsBack_shortestFrom (tie : Tie) (steps : Nat) (exponent : Int) :
    m.ReadsBack (m.shortestFrom tie steps exponent) := by
  induction steps generalizing exponent with
  | zero => exact m.readsBack_exactDecimal
  | succ steps ih =>
      rw [shortestFrom]
      split
      · next d hfound => exact m.readsBack_of_onGrid? hfound
      · exact ih (exponent - 1)

/-- The shortest decimal reads back. -/
theorem readsBack_shortest (tie : Tie) : m.ReadsBack (m.shortest tie) := by
  -- zero is not searched for
  unfold shortest
  split
  · next hzero =>
      show Binary64.ofRatio false (0 * 10 ^ 0 * unitsPerOne) 1 = _
      have hunits := m.ofRatio_mul Nat.one_pos
      rw [hzero] at hunits
      simpa using hunits
  · exact m.readsBack_shortestFrom tie 24 m.topExponent

theorem toBinary64_shortest (tie : Tie) (negative : Bool) :
    (m.shortest tie).toBinary64 negative = .finite negative m := by
  have hread : (m.shortest tie).toBinary64 false = .finite false m := m.readsBack_shortest tie
  cases negative with
  | false => exact hread
  | true =>
      rw [← Bool.not_false, ← Decimal.neg_toBinary64, hread]
      rfl

end Magnitude

/-! ## Numerals as literals -/

/-- A text of digits is the text of a literal without a fraction. -/
theorem exists_literal_whole {t : Text} (ht : AllDigits t) (hne : t ≠ []) (negative : Bool) :
    ∃ l : Literal, l.IsDecimal ∧ l.negative = negative ∧ l.text = signText negative ++ t ∧
      l.decimal = ⟨Nat.ofDigitChars 10 t 0, .ofNat 0⟩ :=
  ⟨⟨negative, t, none⟩, .whole hne ht, rfl, by simp [Literal.text, signText],
    by simp [Literal.decimal]⟩

/-- A text of digits with a point in front of the last ones, but not in front of all of them, is
the text of a literal. -/
theorem exists_literal_pointed {t : Text} {k : Nat} (ht : AllDigits t) (hk : k + 1 < t.length)
    (negative : Bool) :
    ∃ l : Literal, l.IsDecimal ∧ l.negative = negative ∧
      l.text = signText negative ++
        (t.take (t.length - (k + 1)) ++ '.' :: t.drop (t.length - (k + 1))) ∧
      l.decimal = ⟨Nat.ofDigitChars 10 t 0, .negSucc k⟩ := by
  have hlength : (t.drop (t.length - (k + 1))).length = k + 1 := by
    rw [List.length_drop]
    omega
  have hwhole : t.take (t.length - (k + 1)) ≠ [] := by
    rw [← List.length_pos_iff, List.length_take]
    omega
  have hfraction : t.drop (t.length - (k + 1)) ≠ [] := by
    rw [← List.length_pos_iff, hlength]
    omega
  refine ⟨⟨negative, t.take (t.length - (k + 1)), some (t.drop (t.length - (k + 1)))⟩,
    .pointed hwhole (fun c hc => ht c (List.mem_of_mem_take hc)) hfraction
      (fun c hc => ht c (List.mem_of_mem_drop hc)), rfl, ?_, ?_⟩
  · simp [Literal.text, signText]
  · simp only [Literal.decimal, Option.getD_some, List.take_append_drop, hlength]
    rfl

/-- A decimal written out by position is the text of a literal with the same value. -/
theorem Decimal.exists_literal_positional (d : Decimal) (negative : Bool) :
    ∃ l : Literal, l.IsDecimal ∧ l.text = signText negative ++ d.positional ∧
      l.toBinary64 = d.toBinary64 negative := by
  obtain ⟨digits, exponent⟩ := d
  have hdigits := allDigits_toDigits digits
  have hvalue : Nat.ofDigitChars 10 (Nat.toDigits 10 digits) 0 = digits :=
    Nat.ofDigitChars_ten_toDigits
  cases exponent with
  | ofNat k =>
      obtain ⟨l, hl, hsign, htext, hdecimal⟩ :=
        exists_literal_whole (hdigits.append (allDigits_zeros k)) (by simp) negative
      refine ⟨l, hl, htext, ?_⟩
      rw [Nat.ofDigitChars_append, hvalue, Nat.ofDigitChars_replicate_zero] at hdecimal
      rw [Literal.toBinary64, hsign, hdecimal]
      simp [toBinary64, Nat.mul_comm]
  | negSucc k =>
      -- enough zeros stand in front that there is a digit before the point
      have hlength : k + 1 < (List.replicate (k + 2 - (Nat.toDigits 10 digits).length) '0' ++
          Nat.toDigits 10 digits).length := by
        rw [List.length_append, List.length_replicate]
        omega
      obtain ⟨l, hl, hsign, htext, hdecimal⟩ :=
        exists_literal_pointed ((allDigits_zeros _).append hdigits) hlength negative
      refine ⟨l, hl, htext, ?_⟩
      rw [Nat.ofDigitChars_append, Nat.ofDigitChars_replicate_zero, Nat.mul_zero, hvalue]
        at hdecimal
      rw [Literal.toBinary64, hsign, hdecimal]

namespace Binary64

/-- The plain numeral of a finite number is the text of a literal, and reads back. -/
theorem exists_literal_plain {x : Binary64} (hx : x.isFinite = true) :
    ∃ l : Literal, l.IsDecimal ∧ x.plain.toList = l.text ∧ l.toBinary64 = x := by
  cases x with
  | finite negative m =>
      obtain ⟨l, hl, htext, hvalue⟩ := (m.shortest .up).exists_literal_positional negative
      refine ⟨l, hl, ?_, hvalue.trans (m.toBinary64_shortest .up negative)⟩
      rw [plain, String.toList_ofList, htext]
  | infinite negative => cases hx
  | nan => cases hx

/-- The numeral in an explanation is the text of a literal, and reads back as the same number. -/
theorem exists_literal_shown {x : Binary64} (hx : x.isFinite = true) :
    ∃ l : Literal, l.IsDecimal ∧ x.shown.toList = l.text ∧ l.toBinary64.SameNumber x := by
  unfold shown
  split
  · next hzero =>
      exact ⟨⟨false, ['0'], none⟩, .whole (by simp) (allDigits_zeros 1), rfl,
        .inr ⟨by decide +kernel, hzero⟩⟩
  · obtain ⟨l, hl, htext, hvalue⟩ := exists_literal_plain hx
    exact ⟨l, hl, htext, .inl hvalue⟩

end Binary64

end Stepwise
