import Stepwise.CommandLine.Arguments
import Stepwise.Dialogue
import Stepwise.Document
import Stepwise.Json.Writer

set_option autoImplicit false

/-! # Running a command line

What a command line prints and with which exit code it ends, as a function of its arguments,
of the settings file, of the input, and of the texts that are not the program's own. A settings
file that is named has to be there and has to be valid; the one in the working directory is used
only if it is.
-/

namespace Stepwise

/-- The exit code and the standard output of a run. -/
structure Answer where
  exitCode : Nat
  output : String
  deriving DecidableEq, Repr

/-! ## Files -/

/-- Why a file could not be read. -/
inductive FileError
  | notFound
  | isFolder
  | other (reason : String)
  deriving DecidableEq, Repr

/-- The wording of the system. -/
def FileError.message : FileError → String
  | .notFound => "No such file or directory (os error 2)"
  | .isFolder => "Is a directory (os error 21)"
  | .other reason => reason

/-- The contents of files by their paths. -/
abbrev Files := String → Except FileError String

/-! ## Texts from outside -/

/-- The texts that libraries write: the one that reads settings files, and the one that reads
command lines. -/
structure Wording where
  /-- What is wrong with a content that has no settings. -/
  settingsReason : String → String
  /-- The page of help that the arguments ask for. -/
  helpPage : List String → String

/-! ## Settings -/

/-- The settings file in the working directory. -/
def defaultSettingsFile : String := "explain_config.toml"

/-- Why the settings that were named cannot be used. -/
inductive SettingsError
  | unreadable (path : String) (cause : FileError)
  | invalid (path reason : String)
  deriving DecidableEq, Repr

/-- The wording of the failure. -/
def SettingsError.message : SettingsError → String
  | .unreadable path cause => "reading config file " ++ path ++ ": " ++ cause.message
  | .invalid path reason => "parsing config file " ++ path ++ ": " ++ reason

/-- The settings of a run: from the file that was named, or else from the default file, or
else the default ones. -/
def loadSettings (wording : Wording) (files : Files) :
    Option String → Except SettingsError Settings
  | some path =>
      match files path with
      | .error cause => .error (.unreadable path cause)
      | .ok content =>
          match Settings.read? content.toList with
          | some settings => .ok settings
          | none => .error (.invalid path (wording.settingsReason content))
  | none =>
      -- a default file that cannot be used counts as absent
      match files defaultSettingsFile with
      | .error _ => .ok {}
      | .ok content => .ok ((Settings.read? content.toList).getD {})

/-! ## Commands -/

/-- A document as it is printed. -/
def printDocument (v : JsonValue) : String := line (v.write .indented)

/-- What the explanation of a query prints. -/
def explainOutput (settings : Settings) (query : String) : OutputFormat → String
  | .text => (Explainer.explain { limits := settings.limits } query).render settings.showDetails
  | .json =>
      printDocument
        (ExplainDocument.ofOutcome query (Explainer.run { limits := settings.limits } query)).toJson

/-- What the classification of a query prints. -/
def classifyOutput (query : String) : OutputFormat → String
  | .text =>
      line (classify query.toList).name ++
        line ("normalized: " ++ String.ofList (canonical query.toList))
  | .json => printDocument (ClassifyDocument.ofQuery query).toJson

/-- What a command prints for an input. -/
def Command.output (settings : Settings) (input : Text) : Command → String
  | .explain query format => explainOutput settings query format
  | .explainJson query => explainOutput settings query .json
  | .classify query format => classifyOutput query format
  | .dialogue => Dialogue.transcript settings input

/-- The answer when the settings that were named cannot be used: a document for a command
that answers with one, and nothing on the standard output for any other. -/
def settingsFailure (command : Command) (cause : SettingsError) : Answer :=
  match command.jsonQuery? with
  | some query =>
      { exitCode := 1
        output := printDocument
          (FailureDocument.toJson { error := cause.message, input := some query }) }
  | none => { exitCode := 1, output := "" }

/-! ## The whole run -/

/-- The line of the version. -/
def versionLine : String := line "explain_cli 0.1.0"

/-- The answer of a command line that runs no command. -/
def Refusal.answer (wording : Wording) (arguments : List String) : Refusal → Answer
  | .version => { exitCode := 0, output := versionLine }
  | .help => { exitCode := 0, output := wording.helpPage arguments }
  | .misuse => { exitCode := 2, output := "" }

/-- The answer of an invocation. -/
def Invocation.run (i : Invocation) (wording : Wording) (files : Files) (input : Text) : Answer :=
  match loadSettings wording files i.config with
  | .error cause => settingsFailure i.command cause
  | .ok settings => { exitCode := 0, output := i.command.output settings input }

/-- The answer of a command line. -/
def runCommandLine (arguments : List String) (wording : Wording) (files : Files) (input : Text) :
    Answer :=
  match Invocation.read arguments with
  | .error refusal => refusal.answer wording arguments
  | .ok invocation => invocation.run wording files input

end Stepwise
