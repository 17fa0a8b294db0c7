import Mathlib.Tactic.Ring
import Stepwise.Explain.Root
import Stepwise.Proofs.Nearest
import Stepwise.Proofs.Simplification

set_option autoImplicit false

/-! # The approximation of an irrational root

The last step on a root that is no whole number shows an approximation with six places and
carries a result. The numeral shown is the one nearest to the approximation. The result goes
another way: the millionfold of the approximation is rounded to a product, the product to a whole
number, and the quotient of this number and a million is the result. The quotient, written with
six places, is the whole number again. So the result is what is shown, unless the product falls
halfway between two whole numbers: then the second rounding takes the result one millionth above
what is shown.
-/

namespace Stepwise

/-! ## Numerals with a fixed number of places -/

theorem filter_of_isDigit {digits : Text} (h : ∀ c ∈ digits, c.isDigit = true) :
    digits.filter (· ≠ '.') = digits := by
  refine List.filter_eq_self.2 fun c hc => decide_eq_true ?_
  rintro rfl
  exact absurd (h _ hc) (by decide)

/-- Without its point, a numeral with places has the value of its digits. -/
theorem ofDigitChars_positional (digits : Nat) {exponent : Int} (h : exponent < 0) :
    Nat.ofDigitChars 10 ((Decimal.positional ⟨digits, exponent⟩).filter (· ≠ '.')) 0 =
      digits := by
  obtain ⟨k, rfl⟩ := Int.eq_negSucc_of_lt_zero h
  have hdigits : ∀ c ∈ List.replicate (k + 2 - (Nat.toDigits 10 digits).length) '0' ++
      Nat.toDigits 10 digits, c.isDigit = true := by
    intro c hc
    rcases List.mem_append.1 hc with hc | hc
    · rw [List.eq_of_mem_replicate hc]
      decide
    · exact Nat.isDigit_of_mem_toDigits (by decide) (by decide) hc
  rw [Decimal.positional]
  dsimp only
  generalize hpadded : List.replicate (k + 2 - (Nat.toDigits 10 digits).length) '0' ++
    Nat.toDigits 10 digits = padded at hdigits ⊢
  rw [List.filter_append, List.filter_cons_of_neg (by decide), ← List.filter_append,
    List.take_append_drop, filter_of_isDigit hdigits, ← hpadded, Nat.ofDigitChars_append,
    Nat.ofDigitChars_replicate_zero, Nat.mul_zero, Nat.ofDigitChars_ten_toDigits]

/-- The numeral of a number of millionths. -/
def millionths (k : Nat) : String := String.ofList (Decimal.positional ⟨k, -6⟩)

theorem millionths_injective : Function.Injective millionths := by
  intro k l h
  have hpositional := String.ofList_injective h
  have hdigits := congrArg (fun t => Nat.ofDigitChars 10 (t.filter (· ≠ '.')) 0) hpositional
  rwa [ofDigitChars_positional k (by decide), ofDigitChars_positional l (by decide)] at hdigits

theorem fixed_six_eq (m : Magnitude) :
    (Binary64.finite false m).fixed 6 = millionths (m.fixed 6).digits := by
  rw [Binary64.fixed, millionths, Magnitude.fixed, signText, if_neg Bool.false_ne_true,
    List.nil_append, Nat.cast_ofNat]

/-! ## The root of a word -/

theorem hasShortSignificand_two_pow_mul (k : Nat) : HasShortSignificand (2 ^ k * unitsPerOne) :=
  ⟨1, k + 1074, by decide, by rw [Nat.one_mul, unitsPerOne_eq_two_pow rfl, Nat.pow_add]⟩

/-- The doubled root of a square, with one more for a root that is not exact, is at most the
doubled root of a greater square. -/
theorem doubledRoot_le {square bound : Nat} (h : square ≤ bound * bound) :
    2 * floorRoot square + (if floorRoot square * floorRoot square = square then 0 else 1) ≤
      bound * 2 := by
  have hle := floorRoot_mul_self_le square
  have hroot : floorRoot square ≤ bound := Nat.mul_self_le_mul_self_iff.1 (hle.trans h)
  split
  · omega
  · next hne =>
      have hlt : floorRoot square ≠ bound := by
        intro heq
        rw [heq] at hle hne
        exact hne (Nat.le_antisymm hle h)
      omega

/-- A word is a finite number, with its digits rounded to a significand. -/
theorem exists_ofNat_word_eq {n : Nat} (h : n ≤ 2 ^ 64) :
    ∃ m : Magnitude, Binary64.ofNat n = .finite false m ∧
      m.units = roundUnits (n * unitsPerOne) 1 ∧ m.units ≤ 2 ^ 64 * unitsPerOne := by
  have hshort := hasShortSignificand_two_pow_mul 64
  have hle : n * unitsPerOne ≤ 2 ^ 64 * unitsPerOne * 1 := by
    rw [Nat.mul_one]
    exact Nat.mul_le_mul_right _ h
  obtain ⟨m, hm, hunits⟩ := Binary64.exists_ofRatio_eq false Nat.one_pos hshort hle
    (whole_lt_unitsLimit le_rfl)
  exact ⟨m, hm, hunits, hunits ▸ roundUnits_le Nat.one_pos hshort hle⟩

/-- The square root of a positive word is finite and at most `2 ^ 32`. -/
theorem exists_sqrt_ofNat_eq {n : Nat} (hpos : 0 < n) (h : n ≤ 2 ^ 64) :
    ∃ m : Magnitude, (Binary64.ofNat n).sqrt = .finite false m ∧
      m.units ≤ 2 ^ 32 * unitsPerOne := by
  obtain ⟨m, hm, hunits, hbound⟩ := exists_ofNat_word_eq h
  have hne : m.units ≠ 0 := by
    have hone : unitsPerOne ≤ m.units := by
      rw [hunits]
      refine le_roundUnits Nat.one_pos (by simpa using hasShortSignificand_two_pow_mul 0) ?_
      rw [Nat.mul_one]
      exact Nat.le_mul_of_pos_left _ hpos
    exact (unitsPerOne_pos.trans_le hone).ne'
  have hsquare : m.units * unitsPerOne ≤ 2 ^ 32 * unitsPerOne * (2 ^ 32 * unitsPerOne) := by
    calc m.units * unitsPerOne ≤ 2 ^ 64 * unitsPerOne * unitsPerOne :=
          Nat.mul_le_mul_right _ hbound
      _ = 2 ^ 32 * unitsPerOne * (2 ^ 32 * unitsPerOne) := by ring
  have hroot := doubledRoot_le hsquare
  have hshort := hasShortSignificand_two_pow_mul 32
  obtain ⟨root, hsqrt, hunits⟩ := Binary64.exists_ofRatio_eq false Nat.two_pos hshort hroot
    (whole_lt_unitsLimit (by decide))
  refine ⟨root, ?_, hunits ▸ roundUnits_le Nat.two_pos hshort hroot⟩
  rw [hm, Binary64.sqrt, if_neg hne, if_neg Bool.false_ne_true]
  exact hsqrt

/-! ## The millionfold -/

/-- The number lies halfway between the whole numbers `k` and `k + 1`. -/
def Binary64.IsHalfway (k : Nat) : Binary64 → Prop
  | .finite false m => 2 * m.units = (2 * k + 1) * unitsPerOne
  | _ => False

theorem isHalfway_finite_iff {k : Nat} {m : Magnitude} :
    (Binary64.finite false m).IsHalfway k ↔
      2 * m.units = 2 * (k * unitsPerOne) + unitsPerOne := by
  rw [← Nat.mul_assoc, ← Nat.add_one_mul]
  exact Iff.rfl

instance (k : Nat) (x : Binary64) : Decidable (x.IsHalfway k) :=
  match x with
  | .finite false m => inferInstanceAs (Decidable (2 * m.units = (2 * k + 1) * unitsPerOne))
  | .finite true _ | .infinite _ | .nan => inferInstanceAs (Decidable False)

/-- The number of units in one half. -/
def unitsPerHalf : Nat := 2 ^ 1073

theorem unitsPerOne_eq : unitsPerOne = 2 * unitsPerHalf := by
  have hpow (k n : Nat) (h : n = k + 1) : 2 ^ n = 2 * 2 ^ k := by rw [h, Nat.pow_add_one']
  rw [unitsPerOne_eq_two_pow rfl, unitsPerHalf]
  exact hpow 1073 1074 rfl

/-- A number halfway between two whole numbers has a short significand. -/
theorem hasShortSignificand_halfway {k : Nat} (h : k < 2 ^ 52) :
    HasShortSignificand (k * unitsPerOne + unitsPerHalf) := by
  refine ⟨2 * k + 1, 1073, by omega, ?_⟩
  rw [unitsPerOne_eq, Nat.add_one_mul (2 * k), Nat.mul_left_comm, Nat.mul_assoc, unitsPerHalf]

section

variable {m product : Magnitude}

/-- The product has a finite value, and is the millionfold of the number, rounded. -/
theorem exists_millionfold_eq (h : m.units ≤ 2 ^ 32 * unitsPerOne) :
    ∃ product : Magnitude,
      (Binary64.finite false m).mul (.ofNat 1000000) = .finite false product ∧
        product.units = roundUnits (m.units * 1000000 * unitsPerOne) unitsPerOne ∧
        product.units ≤ 2 ^ 32 * 1000000 * unitsPerOne := by
  obtain ⟨million, hmillion, hunits⟩ := Binary64.exists_ofNat_eq (n := 1000000) (by decide)
  have hshort : HasShortSignificand (2 ^ 32 * 1000000 * unitsPerOne) :=
    hasShortSignificand_whole (by decide)
  have hle : m.units * 1000000 * unitsPerOne ≤
      2 ^ 32 * 1000000 * unitsPerOne * unitsPerOne := by
    refine Nat.mul_le_mul_right _ ((Nat.mul_le_mul_right _ h).trans_eq ?_)
    rw [Nat.mul_right_comm]
  obtain ⟨product, hproduct, hvalue⟩ := Binary64.exists_ofRatio_eq false unitsPerOne_pos
    hshort hle (whole_lt_unitsLimit (by decide))
  refine ⟨product, ?_, hvalue, hvalue ▸ roundUnits_le unitsPerOne_pos hshort hle⟩
  rw [hmillion, Binary64.mul, hunits, ← Nat.mul_assoc]
  exact hproduct

/-- The product is at most a half away from the whole number that is shown, because the numbers
halfway between two whole numbers have short significands. -/
theorem product_near_fixed (h : m.units ≤ 2 ^ 32 * unitsPerOne)
    (hproduct : product.units = roundUnits (m.units * 1000000 * unitsPerOne) unitsPerOne) :
    2 * ((m.fixed 6).digits * unitsPerOne) ≤ 2 * product.units + unitsPerOne ∧
      2 * product.units ≤ 2 * ((m.fixed 6).digits * unitsPerOne) + unitsPerOne := by
  rw [Magnitude.fixed, show 10 ^ 6 = 1000000 from rfl]
  dsimp only
  have hlow := two_mul_roundRatio_le .toEven (m.units * 1000000) unitsPerOne
  have hhigh := two_mul_le_roundRatio .toEven (m.units * 1000000) unitsPerOne_pos
  have hbound : roundRatio .toEven (m.units * 1000000) unitsPerOne ≤ 2 ^ 32 * 1000000 := by
    refine roundRatio_le_of_le unitsPerOne_pos ((Nat.mul_le_mul_right _ h).trans_eq ?_)
    rw [Nat.mul_right_comm]
  generalize roundRatio .toEven (m.units * 1000000) unitsPerOne = shown at *
  have hunits := unitsPerOne_eq
  constructor
  · cases shown with
    | zero => omega
    | succ shown =>
        rw [Nat.add_one_mul shown unitsPerOne] at hlow ⊢
        have hle : shown * unitsPerOne + unitsPerHalf ≤ product.units := by
          rw [hproduct]
          refine le_roundUnits unitsPerOne_pos (hasShortSignificand_halfway (by omega)) ?_
          exact Nat.mul_le_mul_right _ (by omega)
        omega
  · have hle : product.units ≤ shown * unitsPerOne + unitsPerHalf := by
      rw [hproduct]
      refine roundUnits_le unitsPerOne_pos (hasShortSignificand_halfway (by omega)) ?_
      exact Nat.mul_le_mul_right _ (by omega)
    omega

/-- The error of the quotient of a whole number and a million is less than half a millionth. -/
theorem million_mul_step_lt {k : Nat} (h : k ≤ 2 ^ 32 * 1000000) :
    1000000 * 2 ^ roundingShift (k * unitsPerOne * unitsPerOne) (1000000 * unitsPerOne) <
      unitsPerOne := by
  obtain ⟨e, he⟩ : ∃ e, unitsPerOne = 2 ^ (e + 20) := ⟨1054, unitsPerOne_eq_two_pow rfl⟩
  have hshift : roundingShift (k * unitsPerOne * unitsPerOne) (1000000 * unitsPerOne) ≤ e := by
    refine roundingShift_le (Nat.mul_pos (by decide) unitsPerOne_pos) ?_
    rw [← Nat.mul_assoc]
    refine Nat.mul_lt_mul_of_pos_right ?_ unitsPerOne_pos
    calc k * unitsPerOne ≤ 2 ^ 32 * 1000000 * unitsPerOne := Nat.mul_le_mul_right _ h
      _ < 2 ^ 33 * 1000000 * unitsPerOne :=
          Nat.mul_lt_mul_of_pos_right (by decide) unitsPerOne_pos
      _ = 2 ^ (53 + e) * 1000000 := by
          rw [he]
          ring
  calc 1000000 * 2 ^ roundingShift (k * unitsPerOne * unitsPerOne) (1000000 * unitsPerOne)
      ≤ 1000000 * 2 ^ e := Nat.mul_le_mul_left _ (Nat.pow_le_pow_right (by decide) hshift)
    _ < 2 ^ 20 * 2 ^ e := Nat.mul_lt_mul_of_pos_right (by decide) (Nat.two_pow_pos e)
    _ = unitsPerOne := by rw [he, Nat.pow_add, Nat.mul_comm]

/-- The quotient of a whole number and a million, with six places, is this number of
millionths. -/
theorem fixed_of_quotient {k : Nat} (h : k ≤ 2 ^ 32 * 1000000) {quotient : Magnitude}
    (hquotient : quotient.units =
      roundUnits (k * unitsPerOne * unitsPerOne) (1000000 * unitsPerOne)) :
    (quotient.fixed 6).digits = k := by
  rw [Magnitude.fixed, show 10 ^ 6 = 1000000 from rfl]
  dsimp only
  have hden : 0 < 1000000 * unitsPerOne := Nat.mul_pos (by decide) unitsPerOne_pos
  have hstep := million_mul_step_lt h
  have hle := two_mul_roundUnits_le (k * unitsPerOne * unitsPerOne) (1000000 * unitsPerOne)
  have hge := two_mul_le_roundUnits (k * unitsPerOne * unitsPerOne) hden
  rw [← hquotient] at hle hge
  generalize roundingShift (k * unitsPerOne * unitsPerOne) (1000000 * unitsPerOne) = shift at *
  have hlow : 2 * (quotient.units * 1000000) ≤ 2 * (k * unitsPerOne) + 1000000 * 2 ^ shift := by
    refine Nat.le_of_mul_le_mul_right ?_ unitsPerOne_pos
    calc 2 * (quotient.units * 1000000) * unitsPerOne
        = 2 * (quotient.units * (1000000 * unitsPerOne)) := by ring
      _ ≤ 2 * (k * unitsPerOne * unitsPerOne) + 1000000 * unitsPerOne * 2 ^ shift := hle
      _ = (2 * (k * unitsPerOne) + 1000000 * 2 ^ shift) * unitsPerOne := by ring
  have hhigh : 2 * (k * unitsPerOne) ≤ 2 * (quotient.units * 1000000) + 1000000 * 2 ^ shift := by
    refine Nat.le_of_mul_le_mul_right ?_ unitsPerOne_pos
    calc 2 * (k * unitsPerOne) * unitsPerOne
        = 2 * (k * unitsPerOne * unitsPerOne) := by ring
      _ ≤ 2 * (quotient.units * (1000000 * unitsPerOne)) + 1000000 * unitsPerOne * 2 ^ shift := hge
      _ = (2 * (quotient.units * 1000000) + 1000000 * 2 ^ shift) * unitsPerOne := by ring
  exact roundRatio_eq_of_near unitsPerOne_pos (by omega) (by omega)

theorem exists_roundToMillionths_eq (h : product.units ≤ 2 ^ 32 * 1000000 * unitsPerOne)
    (hproduct : (Binary64.finite false m).mul (.ofNat 1000000) = .finite false product) :
    ∃ result : Magnitude, roundToMillionths (.finite false m) = .finite false result ∧
      (result.fixed 6).digits = roundRatio .up product.units unitsPerOne := by
  have hk : roundRatio .up product.units unitsPerOne ≤ 2 ^ 32 * 1000000 :=
    roundRatio_le_of_le unitsPerOne_pos h
  obtain ⟨million, hmillion, hvalue⟩ := Binary64.exists_ofNat_eq (n := 1000000) (by decide)
  rw [roundToMillionths, hproduct, hmillion, Binary64.round]
  generalize roundRatio .up product.units unitsPerOne = k at *
  obtain ⟨whole, hwhole, hunits⟩ := Binary64.exists_ofRatio_short false
    (hasShortSignificand_whole (n := k) (by omega)) (whole_lt_unitsLimit (by omega))
  have hshort : HasShortSignificand (2 ^ 32 * unitsPerOne) := hasShortSignificand_whole (by decide)
  have hle : k * unitsPerOne * unitsPerOne ≤
      2 ^ 32 * unitsPerOne * (1000000 * unitsPerOne) := by
    calc k * unitsPerOne * unitsPerOne ≤ 2 ^ 32 * 1000000 * unitsPerOne * unitsPerOne :=
          Nat.mul_le_mul_right _ (Nat.mul_le_mul_right _ hk)
      _ = 2 ^ 32 * unitsPerOne * (1000000 * unitsPerOne) := by ring
  have hden : 0 < 1000000 * unitsPerOne := Nat.mul_pos (by decide) unitsPerOne_pos
  obtain ⟨result, hresult, hquotient⟩ := Binary64.exists_ofRatio_eq false hden hshort hle
    (whole_lt_unitsLimit (by decide))
  refine ⟨result, ?_, fixed_of_quotient hk hquotient⟩
  rw [hwhole, Binary64.div, hunits, hvalue, if_neg hden.ne']
  exact hresult

/-- The product is rounded to what is shown, or up from halfway between it and the next whole
number. -/
theorem roundRatio_up_product (h : m.units ≤ 2 ^ 32 * unitsPerOne)
    (hproduct : product.units = roundUnits (m.units * 1000000 * unitsPerOne) unitsPerOne) :
    roundRatio .up product.units unitsPerOne =
      if (Binary64.finite false product).IsHalfway (m.fixed 6).digits then (m.fixed 6).digits + 1
      else (m.fixed 6).digits := by
  obtain ⟨hlow, hhigh⟩ := product_near_fixed h hproduct
  generalize (m.fixed 6).digits = shown at *
  split
  · next hhalf => exact roundRatio_up_of_half unitsPerOne_pos (isHalfway_finite_iff.1 hhalf)
  · next hhalf =>
      rw [isHalfway_finite_iff] at hhalf
      rcases Nat.lt_or_ge (2 * (shown * unitsPerOne)) (2 * product.units + unitsPerOne) with
        hlt | hge
      · exact roundRatio_eq_of_near unitsPerOne_pos hlt (by omega)
      · -- halfway between the number before and what is shown, the product goes up to the latter
        have hpos := unitsPerOne_pos
        cases shown with
        | zero => omega
        | succ shown =>
            rw [Nat.add_one_mul shown unitsPerOne] at hlow hge
            exact roundRatio_up_of_half hpos (by omega)

end

/-! ## The last step -/

/-- The last step on a number that is no perfect square. -/
theorem getLast?_conclusionSteps {s : Simplification} (h : ¬ s.isPerfectSquare = true) :
    (conclusionSteps s).getLast? = some
      { title := "Decimal approximation"
        detail := some ("Using a calculator: √" ++ toString s.radicand ++ " ≈ " ++
          (Binary64.ofNat s.radicand.toNat).sqrt.fixed 6)
        result := some (roundToMillionths (Binary64.ofNat s.radicand.toNat).sqrt) } := by
  rw [conclusionSteps, if_neg h]
  dsimp only
  rw [List.getLast?_cons_cons, List.getLast?_singleton]

theorem getLast?_explainRoot {n : UInt64} (hn : 1 ≤ n) (h : ¬ IsSquare n.toNat) :
    (explainRoot n).steps.getLast? = some
      { title := "Decimal approximation"
        detail := some ("Using a calculator: √" ++ toString n ++ " ≈ " ++
          (Binary64.ofNat n.toNat).sqrt.fixed 6)
        result := some (roundToMillionths (Binary64.ofNat n.toNat).sqrt) } := by
  have hlast := getLast?_conclusionSteps (s := simplify n) fun hsquare =>
    h ((isPerfectSquare_simplify_iff hn).1 hsquare)
  rw [explainRoot_steps hn, List.getLast?_append, hlast, Option.some_or, simplify]

/-- On a number that is no perfect square, the last step shows a number of millionths. What it
carries, written with six places, is the same number, unless the millionfold of the approximation
is halfway between this number and the next one: then it is the next one. -/
theorem carried_eq_shown_iff {n : UInt64} (h : ¬ IsSquare n.toNat) :
    ∃ (shown : Nat) (carried : Binary64),
      (explainRoot n).steps.getLast? = some
        { title := "Decimal approximation"
          detail := some ("Using a calculator: √" ++ toString n ++ " ≈ " ++ millionths shown)
          result := some carried } ∧
      (Binary64.ofNat n.toNat).sqrt.fixed 6 = millionths shown ∧
      (carried.fixed 6 = millionths shown ↔
        ¬ ((Binary64.ofNat n.toNat).sqrt.mul (.ofNat 1000000)).IsHalfway shown) ∧
      (((Binary64.ofNat n.toNat).sqrt.mul (.ofNat 1000000)).IsHalfway shown →
        carried.fixed 6 = millionths (shown + 1)) := by
  have hpos : 0 < n.toNat := by
    refine Nat.pos_of_ne_zero fun hzero => h ?_
    rw [hzero]
    exact IsSquare.zero
  obtain ⟨m, hsqrt, hbound⟩ := exists_sqrt_ofNat_eq hpos n.toNat_lt.le
  obtain ⟨product, hproduct, hvalue, hlimit⟩ := exists_millionfold_eq hbound
  obtain ⟨result, hresult, hdigits⟩ := exists_roundToMillionths_eq hlimit hproduct
  rw [roundRatio_up_product hbound hvalue] at hdigits
  refine ⟨(m.fixed 6).digits, .finite false result, ?_, ?_, ?_, ?_⟩
  · rw [getLast?_explainRoot (UInt64.le_iff_toNat_le.2 hpos) h, hsqrt, fixed_six_eq, hresult]
  · rw [hsqrt, fixed_six_eq]
  · rw [hsqrt, hproduct, fixed_six_eq, millionths_injective.eq_iff, hdigits]
    split
    · next hhalf => simp [hhalf]
    · next hhalf => simp [hhalf]
  · rw [hsqrt, hproduct]
    intro hhalf
    rw [fixed_six_eq, hdigits, if_pos hhalf]

/-- The result on 72 is what is shown. -/
theorem carried_eq_shown_iff_72 :
    ¬ IsSquare (72 : UInt64).toNat ∧ ∃ carried : Binary64,
      (explainRoot 72).steps.getLast? = some
        { title := "Decimal approximation"
          detail := some "Using a calculator: √72 ≈ 8.485281"
          result := some carried } ∧
      carried.fixed 6 = "8.485281" := by
  have hsquare : ¬ IsSquare (72 : UInt64).toNat := by
    rintro ⟨root, hroot⟩
    exact Nat.not_exists_sq (m := 8) (by decide) (by decide) ⟨root, hroot.symm⟩
  obtain ⟨shown, carried, hstep, hshown, hsame, -⟩ := carried_eq_shown_iff hsquare
  have hnumeral : millionths 8485281 = "8.485281" := by decide +kernel
  have hsqrt : (Binary64.ofNat (72 : UInt64).toNat).sqrt.fixed 6 = millionths 8485281 := by
    decide +kernel
  obtain rfl := millionths_injective (hshown.symm.trans hsqrt)
  rw [hnumeral] at hstep hsame
  exact ⟨hsquare, carried, hstep, hsame.2 (by decide +kernel)⟩

/-- On 4101826 the millionfold is rounded up to a half, and the result is a millionth above what is
shown. -/
theorem carried_ne_shown :
    ¬ IsSquare (4101826 : UInt64).toNat ∧ ∃ carried : Binary64,
      (explainRoot 4101826).steps.getLast? = some
        { title := "Decimal approximation"
          detail := some "Using a calculator: √4101826 ≈ 2025.296521"
          result := some carried } ∧
      carried.fixed 6 = "2025.296522" := by
  have hsquare : ¬ IsSquare (4101826 : UInt64).toNat := by
    rintro ⟨root, hroot⟩
    exact Nat.not_exists_sq (m := 2025) (by decide) (by decide) ⟨root, hroot.symm⟩
  have hlast := getLast?_explainRoot (by decide) hsquare
  have hshown : (Binary64.ofNat (4101826 : UInt64).toNat).sqrt.fixed 6 = "2025.296521" := by
    decide +kernel
  rw [hshown] at hlast
  exact ⟨hsquare, _, hlast, by decide +kernel⟩

end Stepwise
