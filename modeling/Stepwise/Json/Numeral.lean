import Stepwise.Json.Value
import Stepwise.Number.Numeral

set_option autoImplicit false

/-! # Numbers in JSON

How numbers become JSON numerals and how numerals are read.

*Writing.* A finite number gets the fewest digits that read back, and of two such numerals
equally near the one with the even last digit. It is written by position, with a point in
every case, as long as the point falls at most sixteen places behind the first digit and at
most four zeros follow it; otherwise with an exponent that carries its sign. Numbers that are
not finite have no numeral.

*Reading.* A whole numeral is exact as a word. As a binary64 number a numeral is read by a
short rule that rounds up to three times: digits are gathered into a 64-bit significand as
long as they fit, and the significand is multiplied or divided by a power of ten. It need not
give the nearest number.
-/

namespace Stepwise

namespace JsonNumeral

/-! ## Writing -/

/-- The numeral of a natural number. -/
def ofNat (n : Nat) : JsonNumeral := { negative := false, whole := Nat.toDigits 10 n }

/-- The numeral of a decimal with a sign. `point` counts the places of the point behind the
first digit. -/
def ofDecimal (negative : Bool) (d : Decimal) : JsonNumeral :=
  let digits := Nat.toDigits 10 d.digits
  let point := digits.length + d.exponent
  if d.digits = 0 then { negative, whole := ['0'], fraction := ['0'] }
  else if 0 ≤ d.exponent ∧ point ≤ 16 then
    { negative, whole := digits ++ List.replicate d.exponent.toNat '0', fraction := ['0'] }
  else if 0 < point ∧ point ≤ 16 then
    { negative, whole := digits.take point.toNat, fraction := digits.drop point.toNat }
  else if -5 < point ∧ point ≤ 0 then
    { negative, whole := ['0'], fraction := List.replicate (-point).toNat '0' ++ digits }
  else
    { negative, whole := digits.take 1, fraction := digits.drop 1,
      exponent := some (point - 1 < 0, Nat.toDigits 10 (point - 1).natAbs) }

/-! ## Reading -/

/-- The word that a whole numeral without a sign denotes, if it is at most the limit. -/
def word? (limit : Nat) (n : JsonNumeral) : Option Nat :=
  let value := Nat.ofDigitChars 10 n.whole 0
  if n.negative = false ∧ n.fraction = [] ∧ n.exponent = none ∧ value ≤ limit then some value
  else none

/-- The largest 64-bit word. -/
def maxWord : Nat := 2 ^ 64 - 1

/-- Digits gathered behind a significand until the first one that does not fit a word; the
digits from that one on are returned. -/
def gather (significand : Nat) : Text → Nat × Text
  | [] => (significand, [])
  | c :: rest =>
      let next := significand * 10 + (c.toNat - '0'.toNat)
      if next ≤ maxWord then gather next rest else (significand, c :: rest)

/-- The power of ten as a binary64 number. -/
def powerOfTen (k : Nat) : Binary64 := Decimal.toBinary64 false ⟨1, k⟩

/-- A number scaled by a power of ten: one multiplication or division when the power is a
binary64 number, and for a smaller power divisions by `10^308` before. There is no result
beyond the finite numbers. -/
def scale : Nat → Binary64 → Int → Option Binary64
  | 0, value, _ => some value
  | rounds + 1, value, exponent =>
      -- `10^308` is the largest power of ten among the finite numbers
      if exponent.natAbs ≤ 308 then
        if 0 ≤ exponent then
          let product := value.mul (powerOfTen exponent.natAbs)
          if product.isFinite then some product else none
        else some (value.div (powerOfTen exponent.natAbs))
      -- a zero stays one, whatever the power
      else if value.isZero then some value
      else if 0 ≤ exponent then none
      else scale rounds (value.div (powerOfTen 308)) (exponent + 308)

/-- The largest exponent that is read as a number. -/
def maxExponent : Nat := 2 ^ 31 - 1

/-- The magnitude of a numeral with a point, an exponent, or more digits than a word holds. -/
def scaled? (n : JsonNumeral) : Option Binary64 :=
  let (significand, skipped) := gather 0 n.whole
  let (significand, ignored) := gather significand n.fraction
  let places := n.fraction.length - ignored.length
  let exponent : Int := skipped.length - places
  match n.exponent with
  | none => scale 4 (.ofNat significand) exponent
  | some (negative, digits) =>
      let written := Nat.ofDigitChars 10 digits 0
      if written ≤ maxExponent then
        scale 4 (.ofNat significand) (if negative then exponent - written else exponent + written)
      else if significand = 0 ∨ negative then some (.zero false)
      else none

/-- The binary64 number a numeral is read as. -/
def binary64? (n : JsonNumeral) : Option Binary64 :=
  n.scaled?.map fun magnitude => if n.negative then magnitude.neg else magnitude

end JsonNumeral

/-- The value of a binary64 number: null when it is not finite. -/
def JsonValue.ofBinary64 : Binary64 → JsonValue
  | .finite negative m => .number (.ofDecimal negative (m.shortest .toEven))
  | _ => .null

end Stepwise
