import Stepwise.Text.Blank
import Stepwise.Text.Invisible

set_option autoImplicit false

/-! # Quoted text

How a message quotes a piece of input: between double quotes, with a backslash before a
double quote or a backslash, short escapes for the tab, the line ends and the null character,
and the code point in braces for every other character that would not be seen.
-/

namespace Stepwise

/-- The characters that stand for one character in a quotation. -/
def escapeChar (c : Char) : Text :=
  if c = '"' then ['\\', '"']
  else if c = '\\' then ['\\', '\\']
  else if c = '\t' then ['\\', 't']
  else if c = '\r' then ['\\', 'r']
  else if c = '\n' then ['\\', 'n']
  else if c = '\x00' then ['\\', '0']
  else if isInvisible c then
    ['\\', 'u', '\x7b'] ++ Nat.toDigits 16 c.toNat ++ ['\x7d']
  else [c]

/-- The text as a message quotes it. -/
def quote (t : Text) : String :=
  String.ofList ('"' :: t.flatMap escapeChar ++ ['"'])

example : quote ['a', '"', '\\', '\t', '\u00a0'] = "\"a\\\"\\\\\\t\\u\x7ba0\x7d\"" := by decide

end Stepwise
