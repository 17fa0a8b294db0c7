import Stepwise.Text.Blank

set_option autoImplicit false

/-! # Arithmetic text

The characters of plain arithmetic. The test that routes a question and the gate in front of
the expression grammar share this class, so both mean the same by arithmetic text.
-/

namespace Stepwise

/-- An ASCII digit, white space, a point, an operator or a parenthesis. -/
def isArithmeticChar (c : Char) : Bool :=
  c.isDigit || isWhiteSpace c || c ∈ ['.', '+', '-', '*', '/', '(', ')']

/-- A text that is not empty and has arithmetic characters only. -/
def isArithmeticText (t : Text) : Bool := !t.isEmpty && t.all isArithmeticChar

/-- The first character that is not arithmetic, with its position counted from zero. -/
def firstForeign? : Text → Option (Char × Nat)
  | [] => none
  | c :: rest =>
      if isArithmeticChar c then (firstForeign? rest).map fun found => (found.1, found.2 + 1)
      else some (c, 0)

theorem firstForeign?_eq_none_iff (t : Text) :
    firstForeign? t = none ↔ t.all isArithmeticChar = true := by
  induction t with
  | nil => simp [firstForeign?]
  | cons c rest ih =>
      rw [firstForeign?]
      split <;> simp_all

end Stepwise
