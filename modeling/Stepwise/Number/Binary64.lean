import Stepwise.Number.Rounding

set_option autoImplicit false

/-! # Binary64 numbers

Double precision numbers as exact values. Every finite one is a sign and a *magnitude*, and
every magnitude is a whole number of *units*, a unit being `2^-1074`, the smallest positive
binary64 number. The magnitudes are the numbers of units with at most 53 significant binary
digits that stay below `2^2098`, that is, below `2^1024` in value.

An operation computes its exact result as a ratio of units and rounds once (`ofRatio`): to
the nearest number with 53 significant digits, a value halfway between two going to the even
one, and to an infinity when the rounded result is too large. Zero has two signs, and there
is one value that is no number.
-/

namespace Stepwise

/-- The number of units in one. -/
def unitsPerOne : Nat := 2 ^ 1074

/-- The least number of units that is too large for a finite number. -/
def unitsLimit : Nat := 2 ^ 2098

theorem unitsPerOne_eq_two_pow {exponent : Nat} (h : exponent = 1074) :
    unitsPerOne = 2 ^ exponent := by
  rw [h, unitsPerOne]

theorem unitsLimit_eq_two_pow {exponent : Nat} (h : exponent = 2098) :
    unitsLimit = 2 ^ exponent := by
  rw [h, unitsLimit]

theorem unitsPerOne_pos : 0 < unitsPerOne := by
  rw [unitsPerOne_eq_two_pow rfl]
  apply Nat.two_pow_pos

theorem unitsLimit_pos : 0 < unitsLimit := by
  rw [unitsLimit_eq_two_pow rfl]
  apply Nat.two_pow_pos

-- from here on neither is computed, which unification would do
attribute [irreducible] unitsPerOne unitsLimit

/-- At most 53 significant binary digits. -/
def HasShortSignificand (units : Nat) : Prop :=
  ∃ significand shift, significand < 2 ^ 53 ∧ units = significand * 2 ^ shift

/-- The size of a finite number, counted in units. -/
structure Magnitude where
  units : Nat
  short : HasShortSignificand units
  bounded : units < unitsLimit
  deriving DecidableEq

/-- A double precision number. -/
inductive Binary64
  | finite (negative : Bool) (magnitude : Magnitude)
  | infinite (negative : Bool)
  | nan
  deriving DecidableEq

/-! ## Rounding -/

/-- The exponent of the last significant digit that fits when `num / den` is rounded. -/
def roundingShift (num den : Nat) : Nat := (num / den).log2 - 52

/-- The ratio rounded to 53 significant binary digits, with no upper limit. -/
def roundUnits (num den : Nat) : Nat :=
  let shift := roundingShift num den
  roundRatio .toEven num (den * 2 ^ shift) * 2 ^ shift

theorem roundUnits_short (num den : Nat) : HasShortSignificand (roundUnits num den) := by
  unfold roundUnits
  generalize hshift : roundingShift num den = shift
  dsimp only
  -- behind the shift, the quotient has at most 53 digits
  have hq : num / (den * 2 ^ shift) < 2 ^ 53 := by
    rw [← Nat.div_div_eq_div_mul, Nat.div_lt_iff_lt_mul (Nat.two_pow_pos shift), ← Nat.pow_add]
    refine Nat.lt_of_lt_of_le (Nat.lt_log2_self (n := num / den)) ?_
    exact Nat.pow_le_pow_right (by decide) (by unfold roundingShift at hshift; omega)
  have hle := roundRatio_le .toEven num (den * 2 ^ shift)
  generalize roundRatio .toEven num (den * 2 ^ shift) = m at hle ⊢
  by_cases hm : m < 2 ^ 53
  · exact ⟨m, shift, hm, rfl⟩
  · -- rounded up to the next power of two, which has a single significant digit
    have : m = 2 ^ 53 := by omega
    exact ⟨1, 53 + shift, by decide, by rw [this, Nat.pow_add, Nat.one_mul]⟩

namespace Binary64

/-- The number nearest to a ratio of units: an infinity beyond the largest finite number. -/
def ofRatio (negative : Bool) (num den : Nat) : Binary64 :=
  if bounded : roundUnits num den < unitsLimit then
    .finite negative ⟨roundUnits num den, roundUnits_short num den, bounded⟩
  else .infinite negative

/-- The zero of a sign. -/
def zero (negative : Bool) : Binary64 := ofRatio negative 0 1

/-- The number nearest to a natural number. -/
def ofNat (n : Nat) : Binary64 := ofRatio false (n * unitsPerOne) 1

/-! ## Tests -/

/-- The number is neither an infinity nor the value that is no number. -/
def isFinite : Binary64 → Bool
  | .finite _ _ => true
  | _ => false

/-- The number is one of the two zeros. -/
def isZero : Binary64 → Bool
  | .finite _ m => m.units = 0
  | _ => false

/-! ## Arithmetic -/

/-- The number with the other sign. -/
def neg : Binary64 → Binary64
  | .finite negative m => .finite (!negative) m
  | .infinite negative => .infinite (!negative)
  | .nan => .nan

/-- The signed number of units. -/
def signedUnits (negative : Bool) (m : Magnitude) : Int :=
  if negative then -(m.units : Int) else m.units

/-- The sum of two numbers. A sum that is exactly zero is negative only when both numbers
are. -/
def add : Binary64 → Binary64 → Binary64
  | .nan, _ | _, .nan => .nan
  | .infinite a, .infinite b => if a = b then .infinite a else .nan
  | .infinite a, .finite _ _ => .infinite a
  | .finite _ _, .infinite b => .infinite b
  | .finite a x, .finite b y =>
      let sum := signedUnits a x + signedUnits b y
      if sum = 0 then zero (a && b) else ofRatio (sum < 0) sum.natAbs 1

/-- The difference of two numbers. -/
def sub (x y : Binary64) : Binary64 := add x (neg y)

/-- The product of two numbers; an infinity times zero is no number. -/
def mul : Binary64 → Binary64 → Binary64
  | .nan, _ | _, .nan => .nan
  | .infinite a, .infinite b => .infinite (a != b)
  | .infinite a, .finite b y => if y.units = 0 then .nan else .infinite (a != b)
  | .finite a x, .infinite b => if x.units = 0 then .nan else .infinite (a != b)
  | .finite a x, .finite b y => ofRatio (a != b) (x.units * y.units) unitsPerOne

/-- The quotient of two numbers; a non-zero number divided by zero is an infinity. -/
def div : Binary64 → Binary64 → Binary64
  | .nan, _ | _, .nan => .nan
  | .infinite _, .infinite _ => .nan
  | .infinite a, .finite b _ => .infinite (a != b)
  | .finite a _, .infinite b => zero (a != b)
  | .finite a x, .finite b y =>
      if y.units = 0 then
        if x.units = 0 then .nan else .infinite (a != b)
      else ofRatio (a != b) (x.units * unitsPerOne) y.units

/-- The square root. A root that is no whole number of units lies strictly between two of
them, and rounds as the point halfway between does, because 53 significant digits of a root
never reach down to single units. -/
def sqrt : Binary64 → Binary64
  | .finite negative m =>
      if m.units = 0 then .finite negative m
      else if negative then .nan
      else
        let square := m.units * unitsPerOne
        let root := floorRoot square
        ofRatio false (2 * root + if root * root = square then 0 else 1) 2
  | .infinite negative => if negative then .nan else .infinite false
  | .nan => .nan

/-- The nearest whole number; a value halfway between two goes away from zero. -/
def round : Binary64 → Binary64
  | .finite negative m =>
      ofRatio negative (roundRatio .up m.units unitsPerOne * unitsPerOne) 1
  | x => x

end Binary64

end Stepwise
