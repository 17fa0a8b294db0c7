import Stepwise.Session
import Stepwise.Settings
import Stepwise.Terminal

set_option autoImplicit false

/-! # The interactive dialogue

A session over lines of input. A line is a command when it consists of a command word alone,
or of `show` and a number; any other line is a query, which is explained and recorded. Only
queries and `clear` change the history.
-/

namespace Stepwise

/-- The answer to the command `help`. -/
def helpText : String :=
  "Enter a question or a math query, for example:\n" ++
  "  sqrt(72)            square root with simplification\n" ++
  "  square root of 50   same, in words\n" ++
  "  12 * 3              single operation\n" ++
  "  (10 + 2) * 5        expression with precedence\n" ++
  "\n" ++
  "Commands:\n" ++
  "  history             list the last 10 queries (newest first)\n" ++
  "  show <n>            show entry n from the history again\n" ++
  "  clear               forget the history\n" ++
  "  help                this text\n" ++
  "  quit | exit         leave\n"

/-- What a line asks for. -/
inductive LineRequest
  | quit
  | help
  | history
  | clear
  | showEntry (number : Nat)
  | query (text : Text)
  deriving DecidableEq, Repr

/-- The largest number of an entry that can be asked for. -/
def maxEntryNumber : Nat := 2 ^ 64 - 1

/-- The number of an entry, as a machine word is written. -/
def entryNumber? (t : Text) : Option Nat :=
  match readNat? t with
  | some n => if n ≤ maxEntryNumber then some n else none
  | none => none

/-- The request of a line. -/
def LineRequest.ofLine (input : Text) : LineRequest :=
  let t := Text.trim input
  let command := String.ofList (t.takeWhile fun c => !isWhiteSpace c)
  let argument := Text.trim (t.dropWhile fun c => !isWhiteSpace c)
  if argument = [] ∧ (command = "quit" ∨ command = "exit") then .quit
  else if argument = [] ∧ command = "help" then .help
  else if argument = [] ∧ command = "history" then .history
  else if argument = [] ∧ command = "clear" then .clear
  else if command = "show" then
    match entryNumber? argument with
    | some n => .showEntry n
    -- without a number the line is a question that starts with this word
    | none => .query t
  else .query t

/-- The reply to a line. -/
inductive Reply
  | output (text : String)
  | quit
  deriving DecidableEq, Repr

/-- A session that prints its traces. -/
structure Dialogue where
  session : Session := {}
  showDetails : Bool := true

namespace Dialogue

/-- A dialogue that starts with the given settings. -/
def ofSettings (s : Settings) : Dialogue :=
  { session := { explainer := { limits := s.limits } }, showDetails := s.showDetails }

/-- The text of the entry with a number, counted from one. -/
def showEntry (d : Dialogue) (number : Nat) : String :=
  let entry := if number = 0 then none else d.session.select (number - 1)
  match entry with
  | some trace => trace.render d.showDetails
  | none => line ("No history entry " ++ toString number ++ ".")

/-- The reply to a request, and the dialogue after it. -/
def answer (d : Dialogue) : LineRequest → Reply × Dialogue
  | .quit => (.quit, d)
  | .help => (.output helpText, d)
  | .history => (.output (renderHistory d.session.history.entries), d)
  | .clear => (.output (line "History cleared."), { d with session := d.session.clear })
  | .showEntry number => (.output (d.showEntry number), d)
  | .query text =>
      let (outcome, session) := d.session.run (String.ofList text)
      (.output (outcome.trace.render d.showDetails), { d with session })

/-- The reply to a line, and the dialogue after it. -/
def handleLine (d : Dialogue) (input : Text) : Reply × Dialogue :=
  d.answer (.ofLine input)

/-! ## A whole run -/

/-- The first line that is printed. -/
def greeting : String := line "Step-by-step explainer. Type \x60help\x60 for commands."

/-- The last line after a request to quit. -/
def farewell : String := line "Goodbye!"

/-- The last line at the end of the input. -/
def endOfInput : String := line "CTRL-D"

/-- The line holds nothing to reply to. -/
def isIdle (input : Text) : Bool := Text.trim input = []

/-- What is printed from a point of the dialogue on, for the remaining lines. -/
def printed (d : Dialogue) : List Text → String
  | [] => endOfInput
  | input :: rest =>
      if isIdle input then d.printed rest
      else match d.handleLine input with
        | (.output text, next) => text ++ next.printed rest
        | (.quit, _) => farewell

/-- What a dialogue prints for a whole input. -/
def transcript (s : Settings) (input : Text) : String :=
  greeting ++ (ofSettings s).printed (Text.lines input)

end Dialogue

end Stepwise
