import Stepwise.Json.Value

set_option autoImplicit false

/-! # Writing JSON

Two layouts of a JSON value. The compact one has no white space; the indented one puts every
item and every member on a line of its own, indented by two spaces for each level, and leaves
empty arrays and objects closed up. Strings are escaped as little as JSON allows.
-/

namespace Stepwise

/-! ## Scalars -/

/-- A code unit as four hexadecimal digits. -/
def hexDigits4 (unit : Nat) : Text :=
  [unit / 0x1000 % 16, unit / 0x100 % 16, unit / 0x10 % 16, unit % 16].map Nat.digitChar

/-- A part of a string as it is written. -/
def JsonChar.text : JsonChar → Text
  | .char c =>
      if c = '"' then ['\\', '"']
      else if c = '\\' then ['\\', '\\']
      else if c = '\x08' then ['\\', 'b']
      else if c = '\x0c' then ['\\', 'f']
      else if c = '\n' then ['\\', 'n']
      else if c = '\r' then ['\\', 'r']
      else if c = '\t' then ['\\', 't']
      else if c.toNat < 0x20 then '\\' :: 'u' :: hexDigits4 c.toNat
      else [c]
  | .surrogate unit => '\\' :: 'u' :: hexDigits4 unit

/-- A string in its quotes. -/
def JsonString.quoted (s : JsonString) : Text := '"' :: s.flatMap JsonChar.text ++ ['"']

/-- A numeral. -/
def JsonNumeral.text (n : JsonNumeral) : Text :=
  (if n.negative then ['-'] else []) ++ n.whole ++
    (if n.fraction = [] then [] else '.' :: n.fraction) ++
    match n.exponent with
    | none => []
    | some (negative, digits) => 'e' :: (if negative then '-' else '+') :: digits

/-- A truth value. -/
def boolText (b : Bool) : Text :=
  if b then ['t', 'r', 'u', 'e'] else ['f', 'a', 'l', 's', 'e']

/-! ## The compact layout -/

mutual

/-- The compact text of a value. -/
def JsonValue.compact : JsonValue → Text
  | .null => ['n', 'u', 'l', 'l']
  | .bool b => boolText b
  | .number n => n.text
  | .string s => JsonString.quoted s
  | .array items => '[' :: compactItems items ++ [']']
  | .object members => '\x7b' :: compactMembers members ++ ['\x7d']

/-- The items of an array with commas between them. -/
def compactItems : List JsonValue → Text
  | [] => []
  | [item] => item.compact
  | item :: next :: rest => item.compact ++ ',' :: compactItems (next :: rest)

/-- The members of an object with commas between them. -/
def compactMembers : List (JsonString × JsonValue) → Text
  | [] => []
  | [(key, value)] => JsonString.quoted key ++ ':' :: value.compact
  | (key, value) :: next :: rest =>
      JsonString.quoted key ++ ':' :: value.compact ++ ',' :: compactMembers (next :: rest)

end

/-! ## The indented layout -/

/-- A new line at a level of indentation. -/
def newLine (level : Nat) : Text := '\n' :: List.replicate (2 * level) ' '

mutual

/-- The indented text of a value that starts at a level. -/
def JsonValue.indented (level : Nat) : JsonValue → Text
  | .null => ['n', 'u', 'l', 'l']
  | .bool b => boolText b
  | .number n => n.text
  | .string s => JsonString.quoted s
  | .array [] => ['[', ']']
  | .array (item :: rest) =>
      '[' :: newLine (level + 1) ++ item.indented (level + 1) ++
        indentedItems (level + 1) rest ++ newLine level ++ [']']
  | .object [] => ['\x7b', '\x7d']
  | .object ((key, value) :: rest) =>
      '\x7b' :: newLine (level + 1) ++ JsonString.quoted key ++ ':' :: ' ' ::
        value.indented (level + 1) ++
        indentedMembers (level + 1) rest ++ newLine level ++ ['\x7d']

/-- The further items of an array, each on a line of its own after a comma. -/
def indentedItems (level : Nat) : List JsonValue → Text
  | [] => []
  | item :: rest =>
      ',' :: newLine level ++ item.indented level ++ indentedItems level rest

/-- The further members of an object, each on a line of its own after a comma. -/
def indentedMembers (level : Nat) : List (JsonString × JsonValue) → Text
  | [] => []
  | (key, value) :: rest =>
      ',' :: newLine level ++ JsonString.quoted key ++ ':' :: ' ' :: value.indented level ++
        indentedMembers level rest

end

/-- The two layouts. -/
inductive JsonLayout
  | compact
  | indented
  deriving DecidableEq, Repr

/-- The text of a value in a layout. -/
def JsonValue.write (layout : JsonLayout) (v : JsonValue) : String :=
  String.ofList (match layout with
    | .compact => v.compact
    | .indented => v.indented 0)

end Stepwise
