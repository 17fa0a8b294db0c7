import Stepwise.Number.Numeral
import Stepwise.Query.Cue

set_option autoImplicit false

/-! # Root calls and radicands

A root call is a whole text `sqrt(N)`, in any letter case, with blanks allowed around each of
its four parts. Its argument is a radicand when it denotes a whole number from zero to a
limit: a fraction of zeros and the sign of a zero are no obstacles.
-/

namespace Stepwise

/-- The message of a text that is not of a fixed shape. -/
def Mismatch.parseMessage (m : Mismatch) : String := "Parse error: " ++ m.message

/-- The argument of the root call that a text is. -/
def parseRootCall (t : Text) : Except Mismatch Literal := do
  let t ← expectWord sqrtWord (Text.skipBlanks t)
  let t ← expectChar '(' (Text.skipBlanks t)
  let (argument, t) ← scanSigned (Text.skipBlanks t)
  let t ← expectChar ')' (Text.skipBlanks t)
  expectEnd (Text.skipBlanks t)
  return argument

/-- Why the argument of a root call is no radicand. -/
inductive RadicandError
  | negative (text : Text)
  | notWhole (text : Text)
  | tooLarge (text : Text) (max : UInt64)
  deriving DecidableEq, Repr

/-- The wording of the failure. -/
def RadicandError.message : RadicandError → String
  | .negative text =>
      String.ofList text ++ " is negative, and a real square root needs a non-negative number"
  | .notWhole text => String.ofList text ++ " is not a whole number"
  | .tooLarge text max =>
      String.ofList text ++ " exceeds the largest supported radicand (" ++ toString max ++ ")"

/-- All of the characters are zeros. -/
def isAllZeros (digits : Text) : Bool := digits.all (· = '0')

/-- The radicand that a text denotes. A fraction is refused before a sign is, and a whole part
that is no numeral counts as too large. -/
def readRadicand (text : Text) (max : UInt64) : Except RadicandError UInt64 :=
  let (negative, unsigned) := match text with
    | '-' :: rest => (true, rest)
    | _ => (false, text)
  -- what stands before the first point, and what stands behind it
  let whole := unsigned.takeWhile (· ≠ '.')
  let fraction := (unsigned.dropWhile (· ≠ '.')).drop 1
  if !isAllZeros fraction then .error (.notWhole text)
  else if negative && !isAllZeros whole then .error (.negative text)
  else match readNat? whole with
    | some value =>
        if value ≤ max.toNat then .ok (.ofNat value) else .error (.tooLarge text max)
    | none => .error (.tooLarge text max)

end Stepwise
