set_option autoImplicit false

/-! # Blanks and white space

Two classes of characters stand between the words of a text. *Blanks* are the space, the
tab, the carriage return and the line feed: the recognizers skip them before a token.
*White space* is the Unicode property White_Space: a query is trimmed of it, and arithmetic
text may hold it. Every blank is white space (`isWhiteSpace_of_isBlank`).
-/

namespace Stepwise

/-- A text is the list of its characters. -/
abbrev Text := List Char

/-- A space, a tab, a carriage return or a line feed. -/
def isBlank (c : Char) : Bool :=
  c = ' ' || c = '\t' || c = '\r' || c = '\n'

/-- The Unicode property White_Space. -/
def isWhiteSpace (c : Char) : Bool :=
  let n := c.toNat
  (0x09 ≤ n && n ≤ 0x0D) || n = 0x20 || n = 0x85 || n = 0xA0 || n = 0x1680 ||
    (0x2000 ≤ n && n ≤ 0x200A) || n = 0x2028 || n = 0x2029 || n = 0x202F || n = 0x205F ||
    n = 0x3000

theorem isWhiteSpace_of_isBlank {c : Char} (h : isBlank c = true) : isWhiteSpace c = true := by
  simp only [isBlank, Bool.or_eq_true, decide_eq_true_eq] at h
  rcases h with ((rfl | rfl) | rfl) | rfl <;> decide

namespace Text

/-- The text without the blanks at its start. -/
def skipBlanks (t : Text) : Text := t.dropWhile isBlank

/-- The text without the white space at its start. -/
def trimStart (t : Text) : Text := t.dropWhile isWhiteSpace

/-- The text without the white space at its end. -/
def trimEnd (t : Text) : Text := (t.reverse.dropWhile isWhiteSpace).reverse

/-- The text without the white space at its two ends. -/
def trim (t : Text) : Text := trimEnd (trimStart t)

/-- The text cut at every character of the class; the pieces do not hold the cuts, and there
is one piece more than there are cuts. -/
def splitOn (isCut : Char → Bool) : Text → List Text
  | [] => [[]]
  | c :: rest =>
      if isCut c then [] :: splitOn isCut rest
      else match splitOn isCut rest with
        | [] => [[c]]
        | piece :: pieces => (c :: piece) :: pieces

theorem splitOn_ne_nil (isCut : Char → Bool) (t : Text) : splitOn isCut t ≠ [] := by
  cases t with
  | nil => simp [splitOn]
  | cons c rest =>
      rw [splitOn]
      split
      · simp
      · split <;> simp

end Text

end Stepwise
