import Stepwise.Number.Binary64

set_option autoImplicit false

/-! # Decimals and the shortest one that reads back

A decimal is a whole number of some power of ten. Reading one gives the nearest binary64
number (`Decimal.toBinary64`). Writing a number chooses a decimal for it: on the coarsest
decimal grid that has a point reading back as the number, the nearest such point
(`Magnitude.shortest`), or the nearest point on a grid of a fixed number of places
(`Magnitude.fixed`).
-/

namespace Stepwise

/-- The number `digits * 10 ^ exponent`. -/
structure Decimal where
  digits : Nat
  exponent : Int
  deriving DecidableEq, Repr

/-- The binary64 number nearest to a decimal with a sign. -/
def Decimal.toBinary64 (negative : Bool) (d : Decimal) : Binary64 :=
  match d.exponent with
  | .ofNat k => .ofRatio negative (d.digits * 10 ^ k * unitsPerOne) 1
  | .negSucc k => .ofRatio negative (d.digits * unitsPerOne) (10 ^ (k + 1))

namespace Magnitude

/-- The magnitude as a ratio, measured in steps of `10 ^ exponent`. -/
def stepRatio (m : Magnitude) (exponent : Int) : Nat × Nat :=
  match exponent with
  | .ofNat k => (m.units, unitsPerOne * 10 ^ k)
  | .negSucc k => (m.units * 10 ^ (k + 1), unitsPerOne)

/-- The decimal reads back as the magnitude. -/
def ReadsBack (m : Magnitude) (d : Decimal) : Prop :=
  d.toBinary64 false = .finite false m

instance (m : Magnitude) (d : Decimal) : Decidable (m.ReadsBack d) :=
  inferInstanceAs (Decidable (_ = _))

/-- The point nearest to the magnitude, among the points of the grid of `10 ^ exponent` that
read back as it. A grid with such a point has one among the two points around the
magnitude. -/
def onGrid? (tie : Tie) (m : Magnitude) (exponent : Int) : Option Decimal :=
  let ratio := m.stepRatio exponent
  let low := ratio.1 / ratio.2
  [roundRatio tie ratio.1 ratio.2, low, low + 1].map (Decimal.mk · exponent)
    |>.find? fun d => m.ReadsBack d

/-- The magnitude itself, written out to the last decimal place. -/
def exactDecimal (m : Magnitude) : Decimal := ⟨m.units * 5 ^ 1074, -1074⟩

/-- The search for the coarsest grid, from the grid of `10 ^ exponent` down. -/
def shortestFrom (tie : Tie) (m : Magnitude) : Nat → Int → Decimal
  | 0, _ => m.exactDecimal
  | steps + 1, exponent =>
      match m.onGrid? tie exponent with
      | some d => d
      | none => shortestFrom tie m steps (exponent - 1)

/-- An exponent of ten whose power is above the magnitude, and at most a thousand times as
large: 30103 is `100000 * log10 2`, rounded up. -/
def topExponent (m : Magnitude) : Int :=
  (m.units.log2 + 1 - 1074 : Int) * 30103 / 100000 + 2

/-- The decimal with the fewest digits that reads back as the magnitude. Seventeen
significant digits always suffice, so the search ends before its steps do. -/
def shortest (tie : Tie) (m : Magnitude) : Decimal :=
  if m.units = 0 then ⟨0, 0⟩ else m.shortestFrom tie 24 m.topExponent

/-- The decimal with the given number of places that is nearest to the magnitude. -/
def fixed (places : Nat) (m : Magnitude) : Decimal :=
  ⟨roundRatio .toEven (m.units * 10 ^ places) unitsPerOne, -places⟩

end Magnitude

end Stepwise
