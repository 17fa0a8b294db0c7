import Stepwise.Number.Numeral
import Stepwise.Proofs.Scanning

set_option autoImplicit false

/-! # The digits of whole numbers

Numerals are put together from digits: the decimal digits of a whole number (`allDigits_toDigits`),
zeros that move the point, and pieces of both. Read back as a whole number, a text is such digits,
perhaps behind a plus sign, and nothing else (`readNat?_eq_some_iff`). White space around the digits
of a number does not matter, if the text is trimmed first (`readNat?_trim_toDigits`).
-/

namespace Stepwise

theorem allDigits_toDigits (n : Nat) : AllDigits (Nat.toDigits 10 n) :=
  fun _ hc => Nat.isDigit_of_mem_toDigits (by decide) (by decide) hc

theorem allDigits_zeros (k : Nat) : AllDigits (List.replicate k '0') := by
  intro c hc
  rw [List.eq_of_mem_replicate hc]
  rfl

theorem AllDigits.append {t u : Text} (ht : AllDigits t) (hu : AllDigits u) :
    AllDigits (t ++ u) :=
  fun c hc => (List.mem_append.1 hc).elim (ht c) (hu c)

/-- A natural number is read from digits, and from digits behind a plus sign. -/
theorem readNat?_eq_some_iff {t : Text} {n : Nat} :
    readNat? t = some n ↔ ∃ digits, digits ≠ [] ∧ AllDigits digits ∧
      (t = digits ∨ t = '+' :: digits) ∧ Nat.ofDigitChars 10 digits 0 = n := by
  constructor
  · intro h
    obtain ⟨digits, ht, hread⟩ : ∃ digits, (t = digits ∨ t = '+' :: digits) ∧
        readNat? t = if digits ≠ [] ∧ digits.all Char.isDigit then
          some (Nat.ofDigitChars 10 digits 0) else none := by
      rcases t with _ | ⟨c, rest⟩
      · exact ⟨[], .inl rfl, rfl⟩
      · by_cases hplus : c = '+'
        · exact ⟨rest, .inr (by rw [hplus]), by rw [hplus]; rfl⟩
        · exact ⟨c :: rest, .inl rfl, by simp [readNat?, hplus]⟩
    rw [hread] at h
    split at h
    · next hdigits =>
        exact ⟨digits, hdigits.1, List.all_eq_true.1 hdigits.2, ht, Option.some.inj h⟩
    · cases h
  · rintro ⟨digits, hne, hdigits, ht, rfl⟩
    obtain ⟨c, rest, rfl⟩ := List.exists_cons_of_ne_nil hne
    -- a text that starts with a digit does not start with a plus sign
    have hplus : c ≠ '+' := by
      rintro rfl
      exact absurd (hdigits '+' List.mem_cons_self) (by decide)
    have hall : (c :: rest).all Char.isDigit = true := List.all_eq_true.2 hdigits
    rcases ht with rfl | rfl
    · simp [readNat?, hplus, hall]
    · simp [readNat?, hall]

/-! ## Numerals of natural numbers -/

theorem toList_toString (n : Nat) : (toString n).toList = Nat.toDigits 10 n := by
  rw [Nat.toString_eq_ofList_toDigits, String.toList_ofList]

theorem not_mem_toDigits {c : Char} (h : c.isDigit = false) (n : Nat) : c ∉ Nat.toDigits 10 n := by
  intro hc
  rw [allDigits_toDigits n c hc] at h
  cases h

theorem readNat?_toDigits (n : Nat) : readNat? (Nat.toDigits 10 n) = some n :=
  readNat?_eq_some_iff.2 ⟨_, Nat.toDigits_ne_nil, allDigits_toDigits n, .inl rfl,
    Nat.ofDigitChars_ten_toDigits⟩

/-- A number is read back from its digits with white space around them. -/
theorem readNat?_trim_toDigits {before after : Text} (hbefore : AllWhiteSpace before)
    (hafter : AllWhiteSpace after) (n : Nat) :
    readNat? (Text.trim (before ++ Nat.toDigits 10 n ++ after)) = some n := by
  have htrimmed : Text.IsTrimmed (Nat.toDigits 10 n) :=
    isTrimmed_of_forall fun c hc => not_isWhiteSpace_of_isDigit (allDigits_toDigits n c hc)
  rw [Text.trim_append hbefore hafter htrimmed, readNat?_toDigits]

end Stepwise
