import Stepwise.Text.Quoted

set_option autoImplicit false

/-! # Recognizing the start of a text

A recognizer looks at the start of a text. It returns what it has read together with the rest
of the text, or a `Mismatch`: the text at which it stopped and what it needed there. The
pieces recognized here (a word in any case, one character, a decimal literal) are shared by
the shapes of mathematical text.
-/

namespace Stepwise

/-- What a recognizer needed where it stopped. -/
inductive Expected
  | word
  | character
  | digit
  | operator
  | ending
  deriving DecidableEq, Repr

/-- The code of the need, as messages name it. -/
def Expected.code : Expected → String
  | .word => "Tag"
  | .character => "Char"
  | .digit => "Digit"
  | .operator => "OneOf"
  | .ending => "Eof"

/-- The place where a recognizer stopped: the text from there on, and what it needed. -/
structure Mismatch where
  rest : Text
  expected : Expected
  deriving DecidableEq, Repr

/-- The message quotes the text from the failing position on. -/
def Mismatch.message (m : Mismatch) : String :=
  "Parsing Error: Error \x7b input: " ++ quote m.rest ++ ", code: " ++ m.expected.code ++ " \x7d"

/-! ## Words and characters -/

/-- The rest of the text after a word of lower-case ASCII letters and signs, if the text
starts with that word in any letter case. -/
def dropWord? : Text → Text → Option Text
  | [], t => some t
  | _ :: _, [] => none
  | w :: word, c :: t => if c.toLower = w then dropWord? word t else none

/-- The rest of the text after a word, which has to be there. -/
def expectWord (word t : Text) : Except Mismatch Text :=
  match dropWord? word t with
  | some rest => .ok rest
  | none => .error ⟨t, .word⟩

/-- The rest of the text after a character, which has to be there. -/
def expectChar (c : Char) (t : Text) : Except Mismatch Text :=
  match t with
  | d :: rest => if d = c then .ok rest else .error ⟨t, .character⟩
  | [] => .error ⟨t, .character⟩

/-- Nothing may be left of the text. -/
def expectEnd (t : Text) : Except Mismatch Unit :=
  match t with
  | [] => .ok ()
  | _ :: _ => .error ⟨t, .ending⟩

/-! ## Decimal literals -/

/-- A decimal literal as it is written: an optional minus sign, the digits before the point,
and the digits after the point if there is a point. -/
structure Literal where
  negative : Bool
  whole : Text
  fraction : Option Text
  deriving DecidableEq, Repr

/-- The text of a literal. -/
def Literal.text (l : Literal) : Text :=
  (if l.negative then ['-'] else []) ++ l.whole ++
    (match l.fraction with
    | none => []
    | some digits => '.' :: digits)

/-- The digits at the start of a text. -/
def leadingDigits (t : Text) : Text := t.takeWhile Char.isDigit

/-- The text after the digits at its start. -/
def afterDigits (t : Text) : Text := t.dropWhile Char.isDigit

theorem leadingDigits_append_afterDigits (t : Text) : leadingDigits t ++ afterDigits t = t :=
  List.takeWhile_append_dropWhile

/-- Digits, then perhaps a point and more digits. A point that no digit follows is left in
the rest. -/
def scanUnsigned (negative : Bool) (t : Text) : Except Mismatch (Literal × Text) :=
  match leadingDigits t with
  | [] => .error ⟨t, .digit⟩
  | whole =>
      match afterDigits t with
      | '.' :: rest =>
          match leadingDigits rest with
          | [] => .ok (⟨negative, whole, none⟩, '.' :: rest)
          | fraction => .ok (⟨negative, whole, some fraction⟩, afterDigits rest)
      | rest => .ok (⟨negative, whole, none⟩, rest)

/-- An unsigned decimal after an optional minus sign that touches it. -/
def scanSigned (t : Text) : Except Mismatch (Literal × Text) :=
  match t with
  | '-' :: rest => scanUnsigned true rest
  | _ => scanUnsigned false t

end Stepwise
