import Stepwise.Text.Blank

set_option autoImplicit false

/-! # Lines

A line ends at a line feed. The carriage return in front of a line feed belongs to the line
end; any other carriage return belongs to its line. What follows the last line feed is a line
only if it is not empty.
-/

namespace Stepwise

/-- The text without a carriage return at its end. -/
def dropReturn (t : Text) : Text :=
  if t.getLast? = some '\r' then t.dropLast else t

/-- The lines of the pieces between line feeds. -/
def linesOfPieces : List Text → List Text
  | [] => []
  | [last] => if last = [] then [] else [last]
  | piece :: next :: rest => dropReturn piece :: linesOfPieces (next :: rest)

/-- The lines of a text, without their ends. -/
def Text.lines (t : Text) : List Text := linesOfPieces (Text.splitOn (· = '\n') t)

end Stepwise
