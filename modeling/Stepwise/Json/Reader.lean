import Stepwise.Json.Value
import Stepwise.Text.Scan

set_option autoImplicit false

/-! # Reading JSON

The value of a JSON text. Blanks may stand around every token. The recognizers return the
value at the start of a text with the rest of the text, or nothing when there is none; the
nesting of values is bounded by the length of the text, which serves as fuel.
-/

namespace Stepwise

/-! ## Strings -/

/-- The value of a hexadecimal digit. -/
def hexValue? (c : Char) : Option Nat :=
  if c.isDigit then some (c.toNat - '0'.toNat)
  else if 'a' ≤ c ∧ c ≤ 'f' then some (c.toNat - 'a'.toNat + 10)
  else if 'A' ≤ c ∧ c ≤ 'F' then some (c.toNat - 'A'.toNat + 10)
  else none

/-- The code unit of four hexadecimal digits. -/
def codeUnit? (a b c d : Char) : Option Nat := do
  return (← hexValue? a) * 0x1000 + (← hexValue? b) * 0x100 + (← hexValue? c) * 0x10 +
    (← hexValue? d)

/-- The part of a string that a code unit stands for. -/
def JsonChar.ofUnit (unit : Nat) : JsonChar :=
  if 0xD800 ≤ unit ∧ unit < 0xE000 then .surrogate unit else .char (Char.ofNat unit)

/-- The character of an escape of one letter. -/
def shortEscape? (c : Char) : Option Char :=
  if c = '"' ∨ c = '\\' ∨ c = '/' then some c
  else if c = 'b' then some '\x08'
  else if c = 'f' then some '\x0c'
  else if c = 'n' then some '\n'
  else if c = 'r' then some '\r'
  else if c = 't' then some '\t'
  else none

/-- A string behind its opening quote, up to and with the closing one. -/
def readString? : Text → Option (JsonString × Text)
  | [] => none
  | '"' :: rest => some ([], rest)
  | '\\' :: 'u' :: a :: b :: c :: d :: rest => do
      let unit ← codeUnit? a b c d
      let (parts, rest) ← readString? rest
      return (.ofUnit unit :: parts, rest)
  | '\\' :: c :: rest => do
      let c ← shortEscape? c
      let (parts, rest) ← readString? rest
      return (.char c :: parts, rest)
  | c :: rest =>
      if c.toNat < 0x20 ∨ c = '\\' then none
      else do
        let (parts, rest) ← readString? rest
        return (.char c :: parts, rest)

/-! ## Numbers -/

/-- The digits of the exponent behind its letter and sign. -/
def readExponent? (negative : Bool) (t : Text) : Option (Option (Bool × Text) × Text) :=
  match leadingDigits t with
  | [] => none
  | digits => some (some (negative, digits), afterDigits t)

/-- The exponent at the start of a text, if there is one. -/
def scanExponent? : Text → Option (Option (Bool × Text) × Text)
  | c :: rest =>
      if c = 'e' ∨ c = 'E' then
        match rest with
        | '+' :: rest => readExponent? false rest
        | '-' :: rest => readExponent? true rest
        | _ => readExponent? false rest
      else some (none, c :: rest)
  | [] => some (none, [])

/-- The point and the digits behind it at the start of a text, if there is a point. -/
def scanFraction? : Text → Option (Text × Text)
  | '.' :: rest =>
      match leadingDigits rest with
      | [] => none
      | digits => some (digits, afterDigits rest)
  | t => some ([], t)

/-- A numeral without its sign. No zero stands before another digit of the whole part. -/
def readUnsigned? (negative : Bool) (t : Text) : Option (JsonNumeral × Text) :=
  match leadingDigits t with
  | [] => none
  | '0' :: _ :: _ => none
  | whole => do
      let (fraction, rest) ← scanFraction? (afterDigits t)
      let (exponent, rest) ← scanExponent? rest
      return (⟨negative, whole, fraction, exponent⟩, rest)

/-- A numeral. -/
def readNumeral? : Text → Option (JsonNumeral × Text)
  | '-' :: rest => readUnsigned? true rest
  | t => readUnsigned? false t

/-! ## Values -/

mutual

/-- The value at the start of a text. -/
def readValue? : Nat → Text → Option (JsonValue × Text)
  | 0, _ => none
  | fuel + 1, t =>
      match Text.skipBlanks t with
      | 'n' :: 'u' :: 'l' :: 'l' :: rest => some (.null, rest)
      | 't' :: 'r' :: 'u' :: 'e' :: rest => some (.bool true, rest)
      | 'f' :: 'a' :: 'l' :: 's' :: 'e' :: rest => some (.bool false, rest)
      | '"' :: rest => (readString? rest).map fun read => (.string read.1, read.2)
      | '[' :: rest =>
          match Text.skipBlanks rest with
          | ']' :: rest => some (.array [], rest)
          | _ => (readItems? fuel rest).map fun read => (.array read.1, read.2)
      | '\x7b' :: rest =>
          match Text.skipBlanks rest with
          | '\x7d' :: rest => some (.object [], rest)
          | _ => (readMembers? fuel rest).map fun read => (.object read.1, read.2)
      | t => (readNumeral? t).map fun read => (.number read.1, read.2)

/-- One item or more of an array, up to and with the closing bracket. -/
def readItems? : Nat → Text → Option (List JsonValue × Text)
  | 0, _ => none
  | fuel + 1, t => do
      let (item, t) ← readValue? fuel t
      match Text.skipBlanks t with
      | ',' :: t =>
          let (items, t) ← readItems? fuel t
          return (item :: items, t)
      | ']' :: t => return ([item], t)
      | _ => none

/-- One member or more of an object, up to and with the closing brace. -/
def readMembers? : Nat → Text → Option (List (JsonString × JsonValue) × Text)
  | 0, _ => none
  | fuel + 1, t => do
      match Text.skipBlanks t with
      | '"' :: t =>
          let (key, t) ← readString? t
          match Text.skipBlanks t with
          | ':' :: t =>
              let (value, t) ← readValue? fuel t
              match Text.skipBlanks t with
              | ',' :: t =>
                  let (members, t) ← readMembers? fuel t
                  return ((key, value) :: members, t)
              | '\x7d' :: t => return ([(key, value)], t)
              | _ => none
          | _ => none
      | _ => none

end

section

variable {fuel : Nat} {t rest : Text}

/-- No item starts with the bracket that closes an array. -/
theorem readItems?_closing (h : Text.skipBlanks t = ']' :: rest) : readItems? fuel t = none := by
  match fuel with
  | 0 => rfl
  | 1 => rfl
  | fuel + 2 => rw [readItems?, readValue?, h]; rfl

/-- No member starts with the brace that closes an object. -/
theorem readMembers?_closing (h : Text.skipBlanks t = '\x7d' :: rest) :
    readMembers? fuel t = none := by
  match fuel with
  | 0 => rfl
  | fuel + 1 => rw [readMembers?, h]; rfl

end

/-- The value that a whole text is. -/
def JsonValue.read? (t : Text) : Option JsonValue :=
  match readValue? (t.length + 1) t with
  | some (value, rest) => if Text.skipBlanks rest = [] then some value else none
  | none => none

end Stepwise
