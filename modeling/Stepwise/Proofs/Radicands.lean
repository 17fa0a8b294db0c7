import Mathlib.Algebra.Order.Field.Basic
import Mathlib.Algebra.Order.Field.Rat
import Mathlib.Tactic.Linarith
import Stepwise.Proofs.Cues
import Stepwise.Proofs.Numerals

set_option autoImplicit false

/-! # Radicands and exact values

A radicand is told from the text of a literal: from the digits behind the point, the sign, and the
digits before the point (`readRadicand_text`). This is the same as to tell it from the number that
the literal stands for (`Literal.value`), a rational number. What is behind the point is less than
one, so the number is whole exactly if all of those digits are zeros, however many there are; and
the sign of a zero does not count.
-/

namespace Stepwise

/-- The exact value of a literal. -/
def Literal.value (l : Literal) : ℚ :=
  let fraction := l.fraction.getD []
  let size : ℚ := Nat.ofDigitChars 10 l.whole 0 +
    Nat.ofDigitChars 10 fraction 0 / 10 ^ fraction.length
  if l.negative then -size else size

/-- What a literal is as a radicand, told from its value. -/
inductive Literal.IsJudged (l : Literal) (max : UInt64) : Except RadicandError UInt64 → Prop
  | accepted {n : UInt64} (hvalue : l.value = (n.toNat : ℤ)) (hmax : n.toNat ≤ max.toNat) :
      IsJudged l max (.ok n)
  | notWhole (hvalue : ∀ k : ℤ, l.value ≠ k) : IsJudged l max (.error (.notWhole l.text))
  | negative {k : ℤ} (hvalue : l.value = k) (hk : k < 0) :
      IsJudged l max (.error (.negative l.text))
  | tooLarge {k : ℤ} (hvalue : l.value = k) (hk : max.toNat < k) :
      IsJudged l max (.error (.tooLarge l.text max))

/-! ## Digits -/

theorem isAllZeros_iff {digits : Text} (h : AllDigits digits) :
    isAllZeros digits = true ↔ Nat.ofDigitChars 10 digits 0 = 0 := by
  induction digits with
  | nil => simp [isAllZeros]
  | cons c digits ih =>
      obtain ⟨hc, hdigits⟩ := List.forall_mem_cons.1 h
      have hzero : c = '0' ↔ c.toNat - '0'.toNat = 0 := by
        have hlow := (Char.isDigit_iff_toNat.1 hc).1
        constructor
        · rintro rfl
          rfl
        · intro hdifference
          exact Char.toNat_inj.1 (by omega)
      rw [Nat.ofDigitChars_cons, Nat.ofDigitChars_eq_ofDigitChars_zero, isAllZeros, List.all_cons,
        Bool.and_eq_true, decide_eq_true_eq, hzero, ← isAllZeros, ih hdigits]
      simp

/-- Digits stand for less than the power of ten of their number. -/
theorem ofDigitChars_lt {digits : Text} (h : AllDigits digits) :
    Nat.ofDigitChars 10 digits 0 < 10 ^ digits.length := by
  induction digits with
  | nil => simp
  | cons c digits ih =>
      obtain ⟨hc, hdigits⟩ := List.forall_mem_cons.1 h
      have hhigh : c.toNat - '0'.toNat ≤ 9 := by
        have hnine : '9'.toNat = '0'.toNat + 9 := rfl
        have hle := (Char.isDigit_iff_toNat.1 hc).2
        omega
      rw [Nat.ofDigitChars_cons, Nat.ofDigitChars_eq_ofDigitChars_zero, Nat.mul_zero, Nat.zero_add,
        List.length_cons]
      calc 10 ^ digits.length * (c.toNat - '0'.toNat) + Nat.ofDigitChars 10 digits 0
          < 10 ^ digits.length * 9 + 10 ^ digits.length :=
            Nat.add_lt_add_of_le_of_lt (Nat.mul_le_mul_left _ hhigh) (ih hdigits)
        _ = 10 ^ (digits.length + 1) := by omega

/-! ## The value of a literal -/

/-- The value of a literal without a fraction, or with one of zeros only. -/
def Literal.wholeValue (l : Literal) : ℤ :=
  if l.negative then -Nat.ofDigitChars 10 l.whole 0 else Nat.ofDigitChars 10 l.whole 0

theorem Literal.IsDecimal.allDigits_whole {l : Literal} (h : l.IsDecimal) : AllDigits l.whole := by
  cases h with
  | whole _ hd => exact hd
  | pointed _ hd => exact hd

theorem Literal.IsDecimal.allDigits_fraction {l : Literal} (h : l.IsDecimal) :
    AllDigits (l.fraction.getD []) := by
  cases h with
  | whole => exact List.forall_mem_nil _
  | pointed _ _ _ hfd => exact hfd

theorem Literal.value_eq_wholeValue {l : Literal} (h : l.IsDecimal)
    (hzeros : isAllZeros (l.fraction.getD []) = true) : l.value = l.wholeValue := by
  have hfraction := (isAllZeros_iff h.allDigits_fraction).1 hzeros
  simp only [value, wholeValue, hfraction]
  split <;> simp

/-- A fraction that is not zero is no whole number. -/
theorem Literal.value_ne_int {l : Literal} (h : l.IsDecimal)
    (hzeros : isAllZeros (l.fraction.getD []) = false) (k : ℤ) : l.value ≠ k := by
  intro hk
  have hdigits := h.allDigits_fraction
  generalize hfraction : l.fraction.getD [] = fraction at hzeros hdigits
  have hpos : 0 < Nat.ofDigitChars 10 fraction 0 := by
    refine Nat.pos_of_ne_zero fun hzero => ?_
    rw [(isAllZeros_iff hdigits).2 hzero] at hzeros
    cases hzeros
  -- the part behind the point is between zero and one
  have hpower : (0 : ℚ) < 10 ^ fraction.length := by positivity
  have hlow : (0 : ℚ) < Nat.ofDigitChars 10 fraction 0 / 10 ^ fraction.length :=
    div_pos (by exact_mod_cast hpos) hpower
  have hhigh : (Nat.ofDigitChars 10 fraction 0 : ℚ) / 10 ^ fraction.length < 1 := by
    rw [div_lt_one hpower]
    exact_mod_cast ofDigitChars_lt hdigits
  -- and it would be the difference of two whole numbers
  obtain ⟨z, hz⟩ : ∃ z : ℤ, (Nat.ofDigitChars 10 fraction 0 : ℚ) / 10 ^ fraction.length = z := by
    simp only [value, hfraction] at hk
    split at hk
    · exact ⟨-k - Nat.ofDigitChars 10 l.whole 0, by push_cast; linarith⟩
    · exact ⟨k - Nat.ofDigitChars 10 l.whole 0, by push_cast; linarith⟩
  rw [hz] at hlow hhigh
  have hlow : 0 < z := by exact_mod_cast hlow
  have hhigh : z < 1 := by exact_mod_cast hhigh
  omega

/-! ## Reading a radicand -/

/-- The digits of a literal are split at its point. -/
theorem Literal.IsDecimal.split_point {l : Literal} (h : l.IsDecimal) :
    l.unsigned.text.takeWhile (· ≠ '.') = l.whole ∧
      (l.unsigned.text.dropWhile (· ≠ '.')).drop 1 = l.fraction.getD [] := by
  have hpoint {digits : Text} (hdigits : AllDigits digits) :
      ∀ c ∈ digits, decide (c ≠ '.') = true := by
    intro c hc
    refine decide_eq_true ?_
    rintro rfl
    exact absurd (hdigits _ hc) (by decide)
  cases h with
  | @whole negative digits _ hd =>
      have htext : (Literal.unsigned ⟨negative, digits, none⟩).text = digits := by
        simp [Literal.unsigned, Literal.text]
      rw [htext, List.takeWhile_eq_self_iff.2 (hpoint hd), List.dropWhile_eq_nil_iff.2 (hpoint hd)]
      exact ⟨rfl, rfl⟩
  | @pointed negative digits fraction _ hd _ _ =>
      have htext : (Literal.unsigned ⟨negative, digits, some fraction⟩).text =
          digits ++ '.' :: fraction := by
        simp [Literal.unsigned, Literal.text]
      rw [htext, List.takeWhile_append_of_pos (hpoint hd),
        List.dropWhile_append_of_pos (hpoint hd)]
      simp

/-- The text of a literal is read in its parts. -/
theorem readRadicand_text {l : Literal} (h : l.IsDecimal) (max : UInt64) :
    readRadicand l.text max =
      if !isAllZeros (l.fraction.getD []) then .error (.notWhole l.text)
      else if l.negative && !isAllZeros l.whole then .error (.negative l.text)
      else if Nat.ofDigitChars 10 l.whole 0 ≤ max.toNat then
        .ok (.ofNat (Nat.ofDigitChars 10 l.whole 0))
      else .error (.tooLarge l.text max) := by
  have hne : l.whole ≠ [] := by
    cases h with
    | whole hne => exact hne
    | pointed hne => exact hne
  have hread : readNat? l.whole = some (Nat.ofDigitChars 10 l.whole 0) :=
    readNat?_eq_some_iff.2 ⟨l.whole, hne, h.allDigits_whole, .inl rfl, rfl⟩
  obtain ⟨hwhole, hfraction⟩ := h.split_point
  obtain ⟨c, tail, htext, hc⟩ := h.exists_head
  unfold readRadicand
  split
  next negative unsigned hsign =>
    obtain ⟨rfl, rfl⟩ : negative = l.negative ∧ unsigned = l.unsigned.text := by
      rw [Literal.text_eq] at hsign
      cases hnegative : l.negative with
      | true =>
          rw [hnegative] at hsign
          cases hsign
          exact ⟨rfl, rfl⟩
      | false =>
          -- the text starts with a digit
          rw [hnegative, if_neg Bool.false_ne_true, List.nil_append, htext] at hsign
          split at hsign
          · next hminus =>
              cases hminus
              exact absurd hc (by decide)
          · cases hsign
            exact ⟨rfl, htext.symm⟩
    simp only [hwhole, hfraction, hread]

/-- What becomes of a literal is told from its value. -/
theorem isJudged_readRadicand {l : Literal} (h : l.IsDecimal) (max : UInt64) :
    l.IsJudged max (readRadicand l.text max) := by
  rw [readRadicand_text h]
  split
  · next hfraction => exact .notWhole (Literal.value_ne_int h (by simpa using hfraction))
  next hfraction =>
    have hvalue := Literal.value_eq_wholeValue h (by simpa using hfraction)
    have hzeros := isAllZeros_iff h.allDigits_whole
    rw [Literal.wholeValue] at hvalue
    generalize Nat.ofDigitChars 10 l.whole 0 = n at *
    split
    · next hminus =>
        simp only [Bool.and_eq_true, Bool.not_eq_true', ← Bool.not_eq_true, hzeros] at hminus
        rw [if_pos hminus.1] at hvalue
        exact .negative hvalue (by omega)
    next hminus =>
      -- a literal with a sign that comes so far is a zero
      have hvalue : l.value = (n : ℤ) := by
        rw [hvalue]
        cases hnegative : l.negative with
        | false => rfl
        | true =>
            have hzero : n = 0 := by simpa [hnegative, hzeros] using hminus
            simp [hzero]
      split
      · next hmax =>
          have hword : (UInt64.ofNat n).toNat = n :=
            UInt64.toNat_ofNat_of_lt' (hmax.trans_lt max.toNat_lt)
          exact .accepted (by rw [hvalue, hword]) (hword.trans_le hmax)
      · next hmax => exact .tooLarge hvalue (by omega)

/-- The value of a literal allows one verdict only. -/
theorem Literal.IsJudged.unique {l : Literal} {max : UInt64}
    {verdict verdict' : Except RadicandError UInt64} (h : l.IsJudged max verdict)
    (h' : l.IsJudged max verdict') : verdict = verdict' := by
  have same {a b : ℤ} (ha : l.value = a) (hb : l.value = b) : a = b := by
    exact_mod_cast ha.symm.trans hb
  cases h with
  | accepted hvalue hmax =>
      cases h' with
      | accepted hvalue' => rw [UInt64.toNat_inj.1 (Int.ofNat.inj (same hvalue hvalue'))]
      | notWhole hnone => exact absurd hvalue (hnone _)
      | negative hvalue' | tooLarge hvalue' =>
          have heq := same hvalue hvalue'
          omega
  | notWhole hnone =>
      cases h' with
      | notWhole => rfl
      | accepted hvalue' | negative hvalue' | tooLarge hvalue' => exact absurd hvalue' (hnone _)
  | negative hvalue =>
      cases h' with
      | negative => rfl
      | notWhole hnone => exact absurd hvalue (hnone _)
      | accepted hvalue' | tooLarge hvalue' =>
          have heq := same hvalue hvalue'
          omega
  | tooLarge hvalue =>
      cases h' with
      | tooLarge => rfl
      | notWhole hnone => exact absurd hvalue (hnone _)
      | accepted hvalue' | negative hvalue' =>
          have heq := same hvalue hvalue'
          omega

/-- A text is read as a root call exactly if it is the name, an opening parenthesis, a literal and
a closing parenthesis, with blanks around each of them or none; and the literal is a radicand
exactly if its value is a whole number from zero to the limit. Else it is judged not whole,
negative or too large, by its value alone. -/
theorem parseRootCall_and_readRadicand (t : Text) (argument : Literal) (max : UInt64) :
    (parseRootCall t = .ok argument ↔ ∃ before call after, AllBlank before ∧
      CallText argument call ∧ AllBlank after ∧ t = before ++ (call ++ after)) ∧
    (argument.IsDecimal → ∀ verdict,
      readRadicand argument.text max = verdict ↔ argument.IsJudged max verdict) := by
  refine ⟨parseRootCall_eq_ok_iff, fun hdecimal verdict => ⟨?_, fun hverdict => ?_⟩⟩
  · rintro rfl
    exact isJudged_readRadicand hdecimal max
  · exact (isJudged_readRadicand hdecimal max).unique hverdict

/-- A negative zero with leading zeros and a fraction of zeros is the radicand zero. -/
theorem parseRootCall_and_readRadicand_zero :
    (⟨true, ['0', '0'], some ['0']⟩ : Literal).IsDecimal ∧
      parseRootCall " SQRT ( -00.0)".toList = .ok ⟨true, ['0', '0'], some ['0']⟩ ∧
      readRadicand "-00.0".toList 7 = .ok 0 := by
  have hdecimal : (⟨true, ['0', '0'], some ['0']⟩ : Literal).IsDecimal :=
    .pointed (by decide) (by decide) (by decide) (by decide)
  obtain ⟨hcall, hradicand⟩ :=
    parseRootCall_and_readRadicand " SQRT ( -00.0)".toList ⟨true, ['0', '0'], some ['0']⟩ 7
  refine ⟨hdecimal, hcall.2 ⟨[' '], ['S', 'Q', 'R', 'T'] ++ ([' '] ++ '(' :: ([' '] ++
    (['-', '0', '0', '.', '0'] ++ ([] ++ [')'])))), [], by decide, ?_, by decide, by decide⟩, ?_⟩
  · exact .intro (by decide) (by decide) (by decide) hdecimal (by decide)
  · refine (hradicand hdecimal (.ok 0)).2 (.accepted ?_ (by decide))
    simp [Literal.value, Nat.ofDigitChars]

end Stepwise
