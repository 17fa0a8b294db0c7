import Stepwise.Explainer
import Stepwise.Json.Reader
import Stepwise.Text.Lines

set_option autoImplicit false

/-! # Settings

The settings of the command line and the file they are read from: lines `key = value` in
TOML, among blank lines and comments. The three keys are `max_radicand`, `max_query_chars`
and `show_details`; a key that is left out keeps its default. Any other key, a key given
twice, a table, and a value of another type are errors. Limits are TOML integers, that is
64-bit signed ones, and must not be negative.
-/

namespace Stepwise

/-- The limits of the explainer, and whether details are printed. -/
structure Settings where
  limits : Limits := {}
  showDetails : Bool := true
  deriving DecidableEq, Repr

/-! ## Values -/

/-- A value of a type that some key takes. -/
inductive Setting
  | integer (value : Int)
  | boolean (value : Bool)
  deriving DecidableEq, Repr

/-- Digits with single underscores between them, without the underscores. -/
def plainDigits? (isDigit : Char → Bool) : Text → Option Text
  | [] => none
  | [c] => if isDigit c then some [c] else none
  | c :: '_' :: rest =>
      if isDigit c then (plainDigits? isDigit rest).map (c :: ·) else none
  | c :: rest => if isDigit c then (plainDigits? isDigit rest).map (c :: ·) else none

/-- The value of digits in a base of at most sixteen. -/
def valueInBase (base : Nat) (digits : Text) : Nat :=
  digits.foldl (fun value c => base * value + (hexValue? c).getD 0) 0

/-- A digit of a base of at most sixteen. -/
def isDigitInBase (base : Nat) (c : Char) : Bool :=
  match hexValue? c with
  | some value => value < base
  | none => false

/-- A number in a base other than ten, behind its mark. -/
def integerInBase? (base : Nat) (t : Text) : Option Int :=
  (plainDigits? (isDigitInBase base) t).map fun digits => (valueInBase base digits : Int)

/-- The magnitude of a decimal integer: no zero stands before another digit. -/
def decimalMagnitude? (t : Text) : Option Nat :=
  match plainDigits? Char.isDigit t with
  | some ('0' :: _ :: _) => none
  | some digits => some (Nat.ofDigitChars 10 digits 0)
  | none => none

/-- An integer of any size. -/
def integer? : Text → Option Int
  | '0' :: 'x' :: rest => integerInBase? 16 rest
  | '0' :: 'o' :: rest => integerInBase? 8 rest
  | '0' :: 'b' :: rest => integerInBase? 2 rest
  -- only a decimal integer has a sign
  | '+' :: rest => (decimalMagnitude? rest).map fun n => (n : Int)
  | '-' :: rest => (decimalMagnitude? rest).map fun n => -(n : Int)
  | t => (decimalMagnitude? t).map fun n => (n : Int)

/-- The value of a text, if it is of a type that some key takes. -/
def Setting.read? (t : Text) : Option Setting :=
  if t = ['t', 'r', 'u', 'e'] then some (.boolean true)
  else if t = ['f', 'a', 'l', 's', 'e'] then some (.boolean false)
  else match integer? t with
    | some value => if -2 ^ 63 ≤ value ∧ value < 2 ^ 63 then some (.integer value) else none
    | none => none

/-! ## Keys -/

/-- A space or a tab, the white space inside a line. -/
def isLineSpace (c : Char) : Bool := c = ' ' || c = '\t'

/-- A character that may stand in a comment or a quoted key: no control but the tab. -/
def isLineChar (c : Char) : Bool := c = '\t' || (0x20 ≤ c.toNat && c.toNat ≠ 0x7F)

/-- A character of a key without quotes. -/
def isBareKeyChar (c : Char) : Bool := c.isAlphanum || c = '_' || c = '-'

/-- The character of hexadecimal digits that name one. -/
def scalar? (digits : Text) : Option Char := do
  let values ← digits.mapM hexValue?
  let code := values.foldl (fun value digit => 16 * value + digit) 0
  if code.isValidChar then return Char.ofNat code else none

/-- The character of an escape of one letter in a quoted key. -/
def keyEscape? (c : Char) : Option Char :=
  if c = '/' then none else shortEscape? c

/-- A key in double quotes behind the opening one, up to and with the closing one. -/
def quotedKey? : Text → Option (Text × Text)
  | [] => none
  | '"' :: rest => some ([], rest)
  | '\\' :: 'u' :: a :: b :: c :: d :: rest => do
      let x ← scalar? [a, b, c, d]
      let (key, rest) ← quotedKey? rest
      return (x :: key, rest)
  | '\\' :: 'U' :: a :: b :: c :: d :: e :: f :: g :: h :: rest => do
      let x ← scalar? [a, b, c, d, e, f, g, h]
      let (key, rest) ← quotedKey? rest
      return (x :: key, rest)
  | '\\' :: c :: rest => do
      let x ← keyEscape? c
      let (key, rest) ← quotedKey? rest
      return (x :: key, rest)
  | c :: rest =>
      if isLineChar c ∧ c ≠ '\\' then do
        let (key, rest) ← quotedKey? rest
        return (c :: key, rest)
      else none

/-- The key at the start of a text, with the rest. -/
def key? : Text → Option (Text × Text)
  | '"' :: rest => quotedKey? rest
  | '\'' :: rest =>
      let key := rest.takeWhile (· ≠ '\'')
      match rest.dropWhile (· ≠ '\'') with
      | _ :: rest => if key.all isLineChar then some (key, rest) else none
      | [] => none
  | t =>
      match t.takeWhile isBareKeyChar with
      | [] => none
      | key => some (key, t.dropWhile isBareKeyChar)

/-! ## Lines -/

/-- Nothing but white space and a comment. -/
def isLineEnd (t : Text) : Bool :=
  match t.dropWhile isLineSpace with
  | [] => true
  | c :: comment => c = '#' && comment.all isLineChar

/-- The key and the value of a line that gives one. -/
def assignment? (t : Text) : Option (Text × Setting) := do
  let (key, t) ← key? (t.dropWhile isLineSpace)
  match t.dropWhile isLineSpace with
  | '=' :: t =>
      let t := t.dropWhile isLineSpace
      let isValueChar (c : Char) : Bool := !isLineSpace c && c ≠ '#'
      let value ← Setting.read? (t.takeWhile isValueChar)
      if isLineEnd (t.dropWhile isValueChar) then return (key, value) else none
  | _ => none

/-- The assignments of the lines that are not empty. -/
def assignments? : List Text → Option (List (Text × Setting))
  | [] => some []
  | t :: rest =>
      if isLineEnd t then assignments? rest
      else do
        let assignment ← assignment? t
        let more ← assignments? rest
        return assignment :: more

/-! ## The file -/

namespace Settings

/-- A limit as the file gives it. -/
def limit? : Setting → Option Nat
  | .integer value => if 0 ≤ value then some value.toNat else none
  | .boolean _ => none

/-- The settings after one assignment. -/
def assign? (s : Settings) (key : Text) (value : Setting) : Option Settings :=
  if key = "max_radicand".toList then
    (limit? value).map fun n => { s with limits.maxRadicand := .ofNat n }
  else if key = "max_query_chars".toList then
    (limit? value).map fun n => { s with limits.maxQueryChars := n }
  else if key = "show_details".toList then
    match value with
    | .boolean b => some { s with showDetails := b }
    | .integer _ => none
  else none

/-- The settings after assignments in order. -/
def assignAll? (s : Settings) : List (Text × Setting) → Option Settings
  | [] => some s
  | (key, value) :: rest => do assignAll? (← s.assign? key value) rest

/-- The lines of a file; a byte order mark in front of them is dropped. -/
def fileLines (content : Text) : List Text :=
  Text.lines (match content with
    | '\ufeff' :: rest => rest
    | _ => content)

/-- The settings a file gives, if it has no error. -/
def read? (content : Text) : Option Settings := do
  let assignments ← assignments? (fileLines content)
  if (assignments.map Prod.fst).Nodup then assignAll? {} assignments else none

end Settings

end Stepwise
