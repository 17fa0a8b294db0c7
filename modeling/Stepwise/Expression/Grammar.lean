import Stepwise.Expression.Basic
import Stepwise.Text.Arithmetic

set_option autoImplicit false

/-! # The grammar of expressions

    sum     := product (('+' | '-') product)*
    product := factor (('*' | '/') factor)*
    factor  := '-'? primary
    primary := number | '(' sum ')'
    number  := digits ('.' digits?)? | '.' digits

Blanks may stand before every token. Operators of one level group to the left, and
parentheses nest at most 64 deep.

A recognizer fails with a `Failure`. When the operand after an operator does not have its
shape, the chain ends before that operator and the blanks in front of it, and what is left is
judged by whoever asked for the chain. Too deep a nesting and a number too large for binary64
end the whole reading at once.
-/

namespace Stepwise

/-- Why an expression could not be recognized at the start of a text. -/
inductive Failure
  | mismatch (place : Mismatch)
  | tooDeep
  | outOfRange
  deriving DecidableEq, Repr

/-- An expression at the start of a text, with the rest of the text. -/
abbrev Recognizer := Text → Except Failure (Expression × Text)

/-- The deepest nesting of parentheses. -/
def maxNesting : Nat := 64

/-- A number without a sign: digits with or without a point and more digits, or a point with
digits behind it. -/
def scanNumber? (t : Text) : Option (Literal × Text) :=
  match leadingDigits t with
  | [] =>
      match t with
      | '.' :: rest =>
          match leadingDigits rest with
          | [] => none
          | fraction => some (⟨false, [], some fraction⟩, afterDigits rest)
      | _ => none
  | whole =>
      match afterDigits t with
      | '.' :: rest => some (⟨false, whole, some (leadingDigits rest)⟩, afterDigits rest)
      | rest => some (⟨false, whole, none⟩, rest)

namespace Grammar

/-- A number, or what `inner` recognizes between parentheses. -/
def primary (inner : Recognizer) : Recognizer := fun text =>
  let t := Text.skipBlanks text
  match scanNumber? t with
  | some (literal, rest) =>
      let value := literal.toBinary64
      if value.isFinite then .ok (.number value, rest) else .error .outOfRange
  | none =>
      match t with
      | '(' :: rest =>
          match inner rest with
          | .error failure => .error failure
          | .ok (expression, rest) =>
              match expectChar ')' (Text.skipBlanks rest) with
              | .ok rest => .ok (expression, rest)
              | .error mismatch => .error (.mismatch mismatch)
      | _ => .error (.mismatch ⟨t, .character⟩)

/-- A primary after an optional minus sign. -/
def factor (inner : Recognizer) : Recognizer := fun t =>
  match Text.skipBlanks t with
  | '-' :: rest =>
      match primary inner rest with
      | .ok (expression, rest) => .ok (.negation expression, rest)
      | .error failure => .error failure
  | _ => primary inner t

/-- The operator a text goes on with, and the rest behind it. -/
def nextOperator? (level : Char → Option Operator) (t : Text) : Option (Operator × Text) :=
  match Text.skipBlanks t with
  | [] => none
  | c :: rest => (level c).map (·, rest)

/-- As many operators of one level as follow, each with the operand on its right, grouped to
the left. Every round takes one character or more, so the length of the text bounds their
number. -/
def chain (level : Char → Option Operator) (operand : Recognizer) :
    Nat → Expression → Recognizer
  | 0, left, t => .ok (left, t)
  | rounds + 1, left, t =>
      match nextOperator? level t with
      | none => .ok (left, t)
      | some (op, rest) =>
          match operand rest with
          | .ok (right, rest) => chain level operand rounds (.binary op left right) rest
          -- no operand stands here: the chain ends before the operator
          | .error (.mismatch _) => .ok (left, t)
          | .error failure => .error failure

/-- An operand and the chain of one level behind it. -/
def operation (level : Char → Option Operator) (operand : Recognizer) : Recognizer := fun t =>
  match operand t with
  | .ok (left, rest) => chain level operand rest.length left rest
  | .error failure => .error failure

/-- The operators of multiplication and division. -/
def multiplicative? (c : Char) : Option Operator :=
  if c = '*' then some .mul else if c = '/' then some .div else none

/-- The operators of addition and subtraction. -/
def additive? (c : Char) : Option Operator :=
  if c = '+' then some .add else if c = '-' then some .sub else none

/-- Factors that are multiplied and divided. -/
def product (inner : Recognizer) : Recognizer := operation multiplicative? (factor inner)

/-- Products that are added and subtracted. -/
def sum (inner : Recognizer) : Recognizer := operation additive? (product inner)

/-- What stands between parentheses when so many more levels may be opened. -/
def nested : Nat → Recognizer
  | 0, _ => .error .tooDeep
  | levels + 1, t => sum (nested levels) t

/-- An expression outside all parentheses. -/
def expression : Recognizer := sum (nested maxNesting)

end Grammar

/-! ## Reading a whole text -/

/-- Why a text of arithmetic characters is no expression. -/
inductive SyntaxError
  /-- The reading stopped at a place where a token was needed. -/
  | mismatch (place : Mismatch)
  /-- An expression ends before the text does; what follows it, without white space around. -/
  | leftover (rest : Text)
  | tooDeep
  | outOfRange
  deriving DecidableEq, Repr

/-- The expression that a text of arithmetic characters is. -/
def parseArithmetic (t : Text) : Except SyntaxError Expression :=
  match Grammar.expression t with
  | .error (.mismatch mismatch) => .error (.mismatch mismatch)
  | .error .tooDeep => .error .tooDeep
  | .error .outOfRange => .error .outOfRange
  | .ok (expression, rest) =>
      match Text.trim rest with
      | [] => .ok expression
      | left => .error (.leftover left)

/-- Why a text is no expression. -/
inductive ExpressionError
  | unsupportedCharacter (character : Char) (position : Nat)
  | empty
  | malformed (reason : String)
  | tooDeep (levels : Nat)
  | numberOutOfRange
  deriving DecidableEq, Repr

namespace ExpressionError

/-- The wording of the failure. -/
def message : ExpressionError → String
  | unsupportedCharacter character position =>
      "unsupported character '" ++ character.toString ++ "' at position " ++ toString position
  | empty => "empty expression"
  | malformed reason => "malformed expression: " ++ reason
  | tooDeep levels => "parentheses nest deeper than " ++ toString levels ++ " levels"
  | numberOutOfRange => "number literal out of range"

/-- The gate refused the text, so no reading was tried. -/
def isUnsupported : ExpressionError → Bool
  | unsupportedCharacter _ _ | empty => true
  | _ => false

/-- A syntax error as a failure of the whole reading. -/
def ofSyntax : SyntaxError → ExpressionError
  | .mismatch mismatch => malformed mismatch.message
  | .leftover rest => malformed ("unexpected input '" ++ String.ofList rest ++ "'")
  | .tooDeep => tooDeep maxNesting
  | .outOfRange => numberOutOfRange

end ExpressionError

/-- The gate in front of the grammar: the text has to hold something besides white space, and
arithmetic characters only. -/
def checkCharacters (t : Text) : Except ExpressionError Unit :=
  if Text.trim t = [] then .error .empty
  else match firstForeign? t with
    | some (character, position) => .error (.unsupportedCharacter character position)
    | none => .ok ()

/-- The expression that a text is. -/
def parseExpression (t : Text) : Except ExpressionError Expression :=
  match checkCharacters t with
  | .error refusal => .error refusal
  | .ok () =>
      match parseArithmetic t with
      | .error cause => .error (.ofSyntax cause)
      | .ok expression => .ok expression

end Stepwise
