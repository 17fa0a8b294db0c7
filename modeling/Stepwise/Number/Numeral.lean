import Stepwise.Number.Decimal
import Stepwise.Text.Scan

set_option autoImplicit false

/-! # Numerals

How numbers are written and read as text. A *plain* numeral has no exponent and no point
behind a whole number. It uses the fewest digits that read back as the number; of two such
numerals equally near, the greater magnitude. The numeral *shown* in an explanation is the
plain one, except that both zeros are `0`.
-/

namespace Stepwise

/-! ## Writing -/

/-- The decimal written out by position. -/
def Decimal.positional (d : Decimal) : Text :=
  let digits := Nat.toDigits 10 d.digits
  match d.exponent with
  | .ofNat k => digits ++ List.replicate k '0'
  | .negSucc k =>
      let padded := List.replicate (k + 2 - digits.length) '0' ++ digits
      let whole := padded.length - (k + 1)
      padded.take whole ++ '.' :: padded.drop whole

/-- The minus sign of a negative number. -/
def signText (negative : Bool) : Text := if negative then ['-'] else []

namespace Binary64

/-- The plain numeral of a number. -/
def plain : Binary64 → String
  | .finite negative m => String.ofList (signText negative ++ (m.shortest .up).positional)
  | .infinite negative => String.ofList (signText negative ++ ['i', 'n', 'f'])
  | .nan => "NaN"

/-- The numeral of a number in an explanation: plain, with no sign on zero. -/
def shown (x : Binary64) : String := if x.isZero then "0" else x.plain

/-- The numeral of a number with a fixed number of places. -/
def fixed (places : Nat) : Binary64 → String
  | .finite negative m => String.ofList (signText negative ++ (m.fixed places).positional)
  | x => x.plain

end Binary64

/-! ## Reading -/

/-- The value of the digits of a literal. -/
def Literal.decimal (l : Literal) : Decimal :=
  let fraction := l.fraction.getD []
  ⟨Nat.ofDigitChars 10 (l.whole ++ fraction) 0, -fraction.length⟩

/-- The number nearest to a literal. -/
def Literal.toBinary64 (l : Literal) : Binary64 := l.decimal.toBinary64 l.negative

/-- The value of a text of one digit or more, perhaps after a plus sign. -/
def readNat? (t : Text) : Option Nat :=
  let digits := match t with
    | '+' :: rest => rest
    | _ => t
  if digits ≠ [] ∧ digits.all Char.isDigit then some (Nat.ofDigitChars 10 digits 0) else none

end Stepwise
