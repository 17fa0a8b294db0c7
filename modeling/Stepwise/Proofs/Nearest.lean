import Mathlib.Algebra.Order.Ring.Nat
import Stepwise.Number.Binary64

set_option autoImplicit false

/-! # Nearest numbers

What is known of a rounded value without following the digits. A rounded ratio is off by half a
step at most, and the only whole number that is off by less (`roundRatio_eq_of_near`). Rounding to
53 significant digits never passes a number that has no more digits: such a number is a bound of
the rounded value whenever it is one of the exact value (`roundUnits_le`, `le_roundUnits`), and it
is rounded to itself (`roundUnits_of_short`).
-/

namespace Stepwise

/-! ## Rounded ratios -/

section

variable {tie : Tie} {num den k : Nat}

/-- A ratio is rounded down if its fraction is at most a half, or up if it is at least a half. -/
theorem roundRatio_cases (tie : Tie) (num den : Nat) :
    (roundRatio tie num den = num / den ∧ 2 * (num % den) ≤ den) ∨
      (roundRatio tie num den = num / den + 1 ∧ den ≤ 2 * (num % den)) := by
  unfold roundRatio
  dsimp only
  split
  · exact .inl ⟨rfl, by omega⟩
  · split
    · exact .inr ⟨rfl, by omega⟩
    · split
      · rcases Nat.mod_two_eq_zero_or_one (num / den) with h | h
        · exact .inl ⟨by rw [h, Nat.add_zero], by omega⟩
        · exact .inr ⟨by rw [h], by omega⟩
      · exact .inr ⟨rfl, by omega⟩

theorem two_mul_roundRatio_le (tie : Tie) (num den : Nat) :
    2 * (roundRatio tie num den * den) ≤ 2 * num + den := by
  have hdiv := Nat.div_add_mod' num den
  rcases roundRatio_cases tie num den with ⟨heq, hhalf⟩ | ⟨heq, hhalf⟩
  · rw [heq]
    omega
  · rw [heq, Nat.add_one_mul (num / den) den]
    omega

theorem two_mul_le_roundRatio (tie : Tie) (num : Nat) (hden : 0 < den) :
    2 * num ≤ 2 * (roundRatio tie num den * den) + den := by
  have hdiv := Nat.div_add_mod' num den
  have hlt := Nat.mod_lt num hden
  rcases roundRatio_cases tie num den with ⟨heq, hhalf⟩ | ⟨heq, hhalf⟩
  · rw [heq]
    omega
  · rw [heq, Nat.add_one_mul (num / den) den]
    omega

/-- A whole number is an upper bound of the rounded value if it is one of the ratio. -/
theorem roundRatio_le_of_le (hden : 0 < den) (h : num ≤ k * den) :
    roundRatio tie num den ≤ k := by
  have hround := two_mul_roundRatio_le tie num den
  have hlt : roundRatio tie num den * den < (k + 1) * den := by
    rw [Nat.add_one_mul k den]
    omega
  exact Nat.lt_succ_iff.1 (Nat.lt_of_mul_lt_mul_right hlt)

theorem le_roundRatio_of_le (hden : 0 < den) (h : k * den ≤ num) : k ≤ roundRatio tie num den :=
  ((Nat.le_div_iff_mul_le hden).2 h).trans (le_roundRatio tie num den)

/-- A whole number that is off by less than a half is the rounded value. -/
theorem roundRatio_eq_of_near (hden : 0 < den) (hlow : 2 * (k * den) < 2 * num + den)
    (hhigh : 2 * num < 2 * (k * den) + den) : roundRatio tie num den = k := by
  have hle := two_mul_roundRatio_le tie num den
  have hge := two_mul_le_roundRatio tie num hden
  have hupper : roundRatio tie num den * den < (k + 1) * den := by
    rw [Nat.add_one_mul k den]
    omega
  have hlower : k * den < (roundRatio tie num den + 1) * den := by
    rw [Nat.add_one_mul (roundRatio tie num den) den]
    omega
  have hupper := Nat.lt_of_mul_lt_mul_right hupper
  have hlower := Nat.lt_of_mul_lt_mul_right hlower
  omega

/-- A value halfway between two whole numbers goes to the greater one. -/
theorem roundRatio_up_of_half (hden : 0 < den) (h : 2 * num = 2 * (k * den) + den) :
    roundRatio .up num den = k + 1 := by
  have hdiv := Nat.div_add_mod' num den
  have hlt := Nat.mod_lt num hden
  have hquot : num / den = k := by
    refine Nat.div_eq_of_lt_le (by omega) ?_
    rw [Nat.add_one_mul k den]
    omega
  rw [hquot] at hdiv
  unfold roundRatio
  dsimp only
  rw [hquot, if_neg (by omega), if_neg (by omega)]

/-- A ratio is rounded to zero up to one half, a half being halfway to an odd number. -/
theorem roundRatio_toEven_eq_zero_iff (hden : 0 < den) :
    roundRatio .toEven num den = 0 ↔ 2 * num ≤ den := by
  by_cases hlt : num < den
  · have hdiv : num / den = 0 := Nat.div_eq_of_lt hlt
    have hmod : num % den = num := Nat.mod_eq_of_lt hlt
    unfold roundRatio
    dsimp only
    rw [hdiv, hmod]
    split
    · omega
    · split <;> omega
  · have hone : 1 ≤ roundRatio .toEven num den := le_roundRatio_of_le hden (by omega)
    omega

end

/-! ## Rounded units -/

section

variable {num den h : Nat}

/-- A shift drops digits only if there are more than 53 of them. -/
theorem le_of_roundingShift_pos (hden : 0 < den) (h : 0 < roundingShift num den) :
    2 ^ (52 + roundingShift num den) * den ≤ num := by
  have hshift : 52 + roundingShift num den = (num / den).log2 := by
    unfold roundingShift at h ⊢
    omega
  have hne : num / den ≠ 0 := by
    intro hzero
    rw [roundingShift, hzero] at h
    exact absurd h (by decide)
  rw [← Nat.le_div_iff_mul_le hden, hshift]
  exact Nat.log2_self_le hne

theorem roundingShift_le (hden : 0 < den) {bound : Nat} (h : num < 2 ^ (53 + bound) * den) :
    roundingShift num den ≤ bound := by
  by_contra hlt
  have hle : 2 ^ (52 + roundingShift num den) * den ≤ num :=
    le_of_roundingShift_pos hden (by omega)
  have hpow : 2 ^ (53 + bound) ≤ 2 ^ (52 + roundingShift num den) :=
    Nat.pow_le_pow_right (by decide) (by omega)
  exact absurd (hle.trans_lt h) (Nat.not_lt.2 (Nat.mul_le_mul_right den hpow))

/-- A short number is a multiple of the last digit that is kept, or has fewer digits. -/
theorem HasShortSignificand.cases (hshort : HasShortSignificand h) (shift : Nat) :
    (∃ k, h = k * 2 ^ shift) ∨ (0 < shift ∧ h < 2 ^ (52 + shift)) := by
  obtain ⟨significand, exponent, hlt, rfl⟩ := hshort
  rcases Nat.lt_or_ge exponent shift with hexponent | hexponent
  · right
    refine ⟨by omega, ?_⟩
    calc significand * 2 ^ exponent < 2 ^ 53 * 2 ^ exponent :=
          Nat.mul_lt_mul_of_pos_right hlt (Nat.two_pow_pos exponent)
      _ = 2 ^ (53 + exponent) := (Nat.pow_add 2 53 exponent).symm
      _ ≤ 2 ^ (52 + shift) := Nat.pow_le_pow_right (by decide) (by omega)
  · left
    refine ⟨significand * 2 ^ (exponent - shift), ?_⟩
    rw [Nat.mul_assoc, ← Nat.pow_add, Nat.sub_add_cancel hexponent]

/-- A short number is an upper bound of the rounded value if it is one of the exact value. -/
theorem roundUnits_le (hden : 0 < den) (hshort : HasShortSignificand h) (hle : num ≤ h * den) :
    roundUnits num den ≤ h := by
  unfold roundUnits
  dsimp only
  rcases hshort.cases (roundingShift num den) with ⟨k, rfl⟩ | ⟨hpos, hlt⟩
  · refine Nat.mul_le_mul_right _ (roundRatio_le_of_le (Nat.mul_pos hden (Nat.two_pow_pos _)) ?_)
    rwa [Nat.mul_comm den, ← Nat.mul_assoc]
  · -- a number with fewer digits is less than the exact value
    have hge := le_of_roundingShift_pos hden hpos
    have := Nat.mul_lt_mul_of_pos_right hlt hden
    omega

/-- A short number is a lower bound of the rounded value if it is one of the exact value. -/
theorem le_roundUnits (hden : 0 < den) (hshort : HasShortSignificand h) (hle : h * den ≤ num) :
    h ≤ roundUnits num den := by
  have hstep : 0 < den * 2 ^ roundingShift num den := Nat.mul_pos hden (Nat.two_pow_pos _)
  unfold roundUnits
  dsimp only
  rcases hshort.cases (roundingShift num den) with ⟨k, hk⟩ | ⟨hpos, hlt⟩
  · have hround : k ≤ roundRatio .toEven num (den * 2 ^ roundingShift num den) := by
      refine le_roundRatio_of_le hstep ?_
      rwa [Nat.mul_comm den, ← Nat.mul_assoc, ← hk]
    rw [hk]
    exact Nat.mul_le_mul_right _ hround
  · -- the first of the digits that are kept is not zero
    have hround : 2 ^ 52 ≤ roundRatio .toEven num (den * 2 ^ roundingShift num den) := by
      refine le_roundRatio_of_le hstep ?_
      rw [Nat.mul_comm den, ← Nat.mul_assoc, ← Nat.pow_add]
      exact le_of_roundingShift_pos hden hpos
    refine hlt.le.trans ?_
    rw [Nat.pow_add]
    exact Nat.mul_le_mul_right _ hround

/-- A short number is rounded to itself. -/
theorem roundUnits_of_short (hden : 0 < den) (hshort : HasShortSignificand h) :
    roundUnits (h * den) den = h :=
  Nat.le_antisymm (roundUnits_le hden hshort le_rfl) (le_roundUnits hden hshort le_rfl)

/-- A ratio of units is rounded to zero up to half a unit. -/
theorem roundUnits_eq_zero_iff (hden : 0 < den) : roundUnits num den = 0 ↔ 2 * num ≤ den := by
  have hpower := Nat.two_pow_pos (roundingShift num den)
  have hround : roundUnits num den = 0 ↔ 2 * num ≤ den * 2 ^ roundingShift num den := by
    rw [roundUnits, Nat.mul_eq_zero, or_iff_left hpower.ne',
      roundRatio_toEven_eq_zero_iff (Nat.mul_pos hden hpower)]
  rw [hround]
  rcases Nat.eq_zero_or_pos (roundingShift num den) with hzero | hpos
  · rw [hzero, Nat.pow_zero, Nat.mul_one]
  · -- digits are dropped only where the ratio is far above one half
    have hlarge : den * 2 ^ roundingShift num den ≤ num := by
      calc den * 2 ^ roundingShift num den
          ≤ den * 2 ^ (52 + roundingShift num den) :=
            Nat.mul_le_mul_left den (Nat.pow_le_pow_right (by decide) (by omega))
        _ = 2 ^ (52 + roundingShift num den) * den := Nat.mul_comm _ _
        _ ≤ num := le_of_roundingShift_pos hden hpos
    have hden' : den ≤ den * 2 ^ roundingShift num den := Nat.le_mul_of_pos_right den hpower
    omega

/-- The rounded value is off by half of the last digit that is kept, at most. -/
theorem two_mul_roundUnits_le (num den : Nat) :
    2 * (roundUnits num den * den) ≤ 2 * num + den * 2 ^ roundingShift num den := by
  have hround := two_mul_roundRatio_le .toEven num (den * 2 ^ roundingShift num den)
  unfold roundUnits
  dsimp only
  rwa [Nat.mul_assoc, Nat.mul_comm (2 ^ roundingShift num den)]

theorem two_mul_le_roundUnits (num : Nat) (hden : 0 < den) :
    2 * num ≤ 2 * (roundUnits num den * den) + den * 2 ^ roundingShift num den := by
  have hround := two_mul_le_roundRatio .toEven num
    (Nat.mul_pos hden (Nat.two_pow_pos (roundingShift num den)))
  unfold roundUnits
  dsimp only
  rwa [Nat.mul_assoc, Nat.mul_comm (2 ^ roundingShift num den)]

end

/-! ## Finite numbers -/

/-- A ratio with a short bound that is not too large is rounded to a finite number. -/
theorem Binary64.exists_ofRatio_eq (negative : Bool) {num den h : Nat} (hden : 0 < den)
    (hshort : HasShortSignificand h) (hle : num ≤ h * den) (hlimit : h < unitsLimit) :
    ∃ m : Magnitude, ofRatio negative num den = .finite negative m ∧
      m.units = roundUnits num den := by
  have hbounded : roundUnits num den < unitsLimit :=
    (roundUnits_le hden hshort hle).trans_lt hlimit
  exact ⟨_, by rw [ofRatio, dif_pos hbounded], rfl⟩

/-- A short number of units that is not too large is a finite number. -/
theorem Binary64.exists_ofRatio_short (negative : Bool) {h : Nat} (hshort : HasShortSignificand h)
    (hlimit : h < unitsLimit) :
    ∃ m : Magnitude, ofRatio negative h 1 = .finite negative m ∧ m.units = h := by
  obtain ⟨m, hm, hunits⟩ :=
    exists_ofRatio_eq negative Nat.one_pos hshort (Nat.mul_one h).ge hlimit
  have hexact := roundUnits_of_short Nat.one_pos hshort
  rw [Nat.mul_one] at hexact
  exact ⟨m, hm, hunits.trans hexact⟩

theorem hasShortSignificand_whole {n : Nat} (h : n < 2 ^ 53) :
    HasShortSignificand (n * unitsPerOne) :=
  ⟨n, 1074, h, by rw [unitsPerOne_eq_two_pow rfl]⟩

theorem whole_lt_unitsLimit {n : Nat} (h : n ≤ 2 ^ 64) : n * unitsPerOne < unitsLimit := by
  refine (Nat.mul_le_mul_right unitsPerOne h).trans_lt ?_
  rw [unitsPerOne_eq_two_pow rfl, unitsLimit_eq_two_pow rfl, ← Nat.pow_add 2 64 1074]
  apply Nat.pow_lt_pow_of_lt <;> decide

/-- A natural number with at most 53 binary digits is a finite number. -/
theorem Binary64.exists_ofNat_eq {n : Nat} (h : n < 2 ^ 53) :
    ∃ m : Magnitude, ofNat n = .finite false m ∧ m.units = n * unitsPerOne :=
  exists_ofRatio_short false (hasShortSignificand_whole h)
    (whole_lt_unitsLimit (h.le.trans (Nat.pow_le_pow_right (by decide) (by decide))))

end Stepwise
