import Stepwise.Text.Blank

set_option autoImplicit false

/-! # JSON values

A JSON text as a tree. The tree keeps what the text says and leaves its meaning to whoever
reads it: a number is its numeral, and a string is a list of parts, a part being a character
or an escape that names one half of a surrogate pair. Such a string is a text exactly when
all its halves are paired (`JsonString.text?`).
-/

namespace Stepwise

/-- A JSON number as it is written. -/
structure JsonNumeral where
  negative : Bool
  /-- The digits before the point. -/
  whole : Text
  /-- The digits after the point, none if there is no point. -/
  fraction : Text := []
  /-- The sign of the exponent, negative or not, and its digits. -/
  exponent : Option (Bool × Text) := none
  deriving DecidableEq, Repr

/-- A part of a JSON string. -/
inductive JsonChar
  | char (c : Char)
  /-- One half of a surrogate pair, as its code unit. -/
  | surrogate (unit : Nat)
  deriving DecidableEq, Repr

/-- The parts of a JSON string in order. -/
abbrev JsonString := List JsonChar

/-- The string of a text. -/
def JsonString.ofText (t : Text) : JsonString := t.map JsonChar.char

/-- The character named by the two halves of a surrogate pair. -/
def surrogatePair? (high low : Nat) : Option Char :=
  if high < 0xDC00 ∧ 0xDC00 ≤ low then
    some (Char.ofNat (0x10000 + (high - 0xD800) * 0x400 + (low - 0xDC00)))
  else none

/-- The text of a string. -/
def JsonString.text? : JsonString → Option Text
  | [] => some []
  | .char c :: rest => (text? rest).map (c :: ·)
  | .surrogate high :: .surrogate low :: rest =>
      match surrogatePair? high low with
      | some c => (text? rest).map (c :: ·)
      | none => none
  | .surrogate _ :: _ => none

theorem JsonString.text?_ofText (t : Text) : text? (ofText t) = some t := by
  induction t with
  | nil => rfl
  | cons c rest ih =>
      show (text? (ofText rest)).map (c :: ·) = _
      rw [ih]; rfl

/-- A JSON value. -/
inductive JsonValue
  | null
  | bool (value : Bool)
  | number (numeral : JsonNumeral)
  | string (content : JsonString)
  | array (items : List JsonValue)
  | object (members : List (JsonString × JsonValue))

/-- The value of a string. -/
def JsonValue.ofString (s : String) : JsonValue := .string (.ofText s.toList)

end Stepwise
