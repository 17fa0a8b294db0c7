import Stepwise.Text.Scan

set_option autoImplicit false

/-! # Command line arguments

The arguments are read from left to right, first those in front of the command and then those
of the command. An option of two dashes takes its value from behind an equals sign or from
the next argument, which must not look like an option; options of one dash and one letter can
be written together; after two dashes alone everything is an operand. The first mistake
decides, and so does the first request for the version or for help.

The options `--config` and `--verbose` may stand in front of the command or behind it. Each
place takes `--config` once, and the one behind the command counts.
-/

namespace Stepwise

/-- The forms in which an answer is printed. -/
inductive OutputFormat
  | text
  | json
  deriving DecidableEq, Repr

/-- The format of a name. -/
def OutputFormat.ofName? (name : String) : Option OutputFormat :=
  if name = "text" then some .text else if name = "json" then some .json else none

/-- What the command line asks for. -/
inductive Command
  | explain (query : String) (format : OutputFormat)
  | explainJson (query : String)
  | classify (query : String) (format : OutputFormat)
  | dialogue
  deriving DecidableEq, Repr

/-- The query of a command that answers with a JSON document. -/
def Command.jsonQuery? : Command → Option String
  | .explain query .json | .explainJson query | .classify query .json => some query
  | _ => none

/-- A command with the settings file that was named, if one was. -/
structure Invocation where
  command : Command
  config : Option String := none
  deriving DecidableEq, Repr

/-- Why no command is run. -/
inductive Refusal
  /-- The version was asked for. -/
  | version
  /-- Help was asked for. -/
  | help
  /-- The arguments are not as they should be. -/
  | misuse
  deriving DecidableEq, Repr

/-! ## The forms of an argument -/

/-- An argument by its form. -/
inductive Argument
  | operand (value : String)
  /-- Two dashes alone. -/
  | separator
  /-- Two dashes, a name, and perhaps a value behind an equals sign. -/
  | long (name : String) (value : Option String)
  /-- One dash and letters. -/
  | short (letters : Text)
  deriving DecidableEq, Repr

/-- The form of an argument. A dash alone is an operand. -/
def Argument.ofString (argument : String) : Argument :=
  match argument.toList with
  | '-' :: '-' :: [] => .separator
  | '-' :: '-' :: rest =>
      let name := String.ofList (rest.takeWhile (· ≠ '='))
      match rest.dropWhile (· ≠ '=') with
      | [] => .long name none
      | _ :: value => .long name (some (String.ofList value))
  | '-' :: letter :: rest => .short (letter :: rest)
  | _ => .operand argument

/-- The value of an option from the argument behind it: no value looks like an option. -/
def Argument.value? : Argument → Option String
  | .operand value => some value
  | _ => none

/-! ## Options that may stand anywhere -/

/-- Letters of one dash in front of the command. -/
def rootLetters : Text → Except Refusal Unit
  | [] => .ok ()
  | 'v' :: rest => rootLetters rest
  | 'V' :: _ => .error .version
  | 'h' :: _ => .error .help
  | _ :: _ => .error .misuse

/-- Letters of one dash behind the command. -/
def commandLetters : Text → Except Refusal Unit
  | [] => .ok ()
  | 'v' :: rest => commandLetters rest
  | 'h' :: _ => .error .help
  | _ :: _ => .error .misuse

/-- The path of a settings file; an option that was given before is not given again. -/
def configPath (before : Option String) (path : Option String) : Except Refusal String :=
  match before, path with
  | none, some path => if path = "" then .error .misuse else .ok path
  | _, _ => .error .misuse

/-- The value of a format option; an option that was given before is not given again. -/
def formatValue (before : Option OutputFormat) (name : Option String) :
    Except Refusal OutputFormat :=
  match before, name with
  | none, some name =>
      match OutputFormat.ofName? name with
      | some format => .ok format
      | none => .error .misuse
  | _, _ => .error .misuse

/-! ## The arguments of a command -/

/-- What a command takes. -/
structure CommandShape where
  takesQuery : Bool
  takesFormat : Bool
  /-- The command with its query and its format. -/
  build : String → OutputFormat → Command

/-- The shape of the command of a name. -/
def CommandShape.ofName? (name : String) : Option CommandShape :=
  if name = "explain" then some ⟨true, true, .explain⟩
  else if name = "explain-json" then some ⟨true, false, fun query _ => .explainJson query⟩
  else if name = "classify" then some ⟨true, true, .classify⟩
  else if name = "repl" then some ⟨false, false, fun _ _ => .dialogue⟩
  else none

/-- What has been read of the arguments of a command. -/
structure CommandArguments where
  config : Option String := none
  query : Option String := none
  format : Option OutputFormat := none
  deriving DecidableEq, Repr

namespace CommandArguments

/-- One operand more: a command takes one query at most. -/
def addOperand (shape : CommandShape) (a : CommandArguments) (value : String) :
    Except Refusal CommandArguments :=
  if shape.takesQuery ∧ a.query = none then .ok { a with query := some value }
  else .error .misuse

/-- The operands behind two dashes. -/
def addOperands (shape : CommandShape) (a : CommandArguments) :
    List String → Except Refusal CommandArguments
  | [] => .ok a
  | value :: rest => do addOperands shape (← a.addOperand shape value) rest

/-- The arguments of a command. -/
def read (shape : CommandShape) (a : CommandArguments) :
    List String → Except Refusal CommandArguments
  | [] => .ok a
  | argument :: rest =>
      match Argument.ofString argument with
      | .operand value => do read shape (← a.addOperand shape value) rest
      | .separator => a.addOperands shape rest
      | .short letters => do
          commandLetters letters
          read shape a rest
      | .long name value =>
          -- the value stands behind the equals sign, or is the next argument
          if name = "config" then
            match value, rest with
            | some path, rest => do
                read shape { a with config := some (← configPath a.config (some path)) } rest
            | none, next :: rest => do
                let path ← configPath a.config (Argument.ofString next).value?
                read shape { a with config := some path } rest
            | none, [] => .error .misuse
          else if name = "format" ∧ shape.takesFormat then
            match value, rest with
            | some format, rest => do
                read shape { a with format := some (← formatValue a.format (some format)) } rest
            | none, next :: rest => do
                let format ← formatValue a.format (Argument.ofString next).value?
                read shape { a with format := some format } rest
            | none, [] => .error .misuse
          else if value ≠ none then .error .misuse
          else if name = "verbose" then read shape a rest
          else if name = "help" then .error .help
          else .error .misuse

/-- The command of the arguments: a query that has to be there is there. -/
def command (shape : CommandShape) (a : CommandArguments) : Except Refusal Command :=
  match a.query with
  | some query => .ok (shape.build query (a.format.getD .text))
  | none => if shape.takesQuery then .error .misuse else .ok (shape.build "" .text)

end CommandArguments

/-! ## All arguments -/

/-- The arguments behind `help`, which are the names of a command or of help itself. -/
def helpRequest : List String → Refusal
  | [] => .help
  | [name] => if (CommandShape.ofName? name).isSome ∨ name = "help" then .help else .misuse
  | _ => .misuse

/-- The invocation of the arguments from the command on. -/
def readCommand (config : Option String) (shape : CommandShape) (arguments : List String) :
    Except Refusal Invocation := do
  let a ← CommandArguments.read shape {} arguments
  return { command := ← a.command shape, config := a.config.or config }

/-- The invocation of the arguments, when `config` has been given before them. -/
def readInvocation (config : Option String) : List String → Except Refusal Invocation
  | [] => .error .misuse
  | argument :: rest =>
      match Argument.ofString argument with
      | .operand name =>
          if name = "help" then .error (helpRequest rest)
          else match CommandShape.ofName? name with
            | some shape => readCommand config shape rest
            | none => .error .misuse
      | .separator => .error .misuse
      | .short letters => do
          rootLetters letters
          readInvocation config rest
      | .long name value =>
          if name = "config" then
            match value, rest with
            | some path, rest => do
                readInvocation (some (← configPath config (some path))) rest
            | none, next :: rest => do
                readInvocation (some (← configPath config (Argument.ofString next).value?)) rest
            | none, [] => .error .misuse
          else if value ≠ none then .error .misuse
          else if name = "verbose" then readInvocation config rest
          else if name = "version" then .error .version
          else if name = "help" then .error .help
          else .error .misuse

/-- The invocation of a command line. -/
def Invocation.read (arguments : List String) : Except Refusal Invocation :=
  readInvocation none arguments

end Stepwise
