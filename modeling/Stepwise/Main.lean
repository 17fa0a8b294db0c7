import Stepwise.CommandLine.Run

set_option autoImplicit false

/-! # The program

The outer layer: it reads the settings file, passes lines between the terminal and a
dialogue, and prints what the library computes. The texts that a library would write for it are
its own (`plainWording`).
-/

namespace Stepwise

/-- One reason for every content without settings, and one page for every request for help. -/
def plainWording : Wording where
  settingsReason _ := "invalid settings"
  helpPage _ :=
    "Step-by-step explanations for arithmetic, square roots and general questions\n" ++
    "\n" ++
    "Usage: explain_cli [OPTIONS] <COMMAND>\n" ++
    "\n" ++
    "Commands:\n" ++
    "  explain   Explain a query step by step\n" ++
    "  classify  Show whether a query is treated as math and how it normalizes\n" ++
    "  repl      Interactive session with history\n" ++
    "\n" ++
    "Options:\n" ++
    "      --config <CONFIG>  Path to a TOML config file " ++
      "(default: ./explain_config.toml if present)\n" ++
    "  -v, --verbose...       Increase log verbosity\n" ++
    "  -h, --help             Print help\n" ++
    "  -V, --version          Print version\n"

/-- The contents of a file, or why it could not be read. -/
def readSettingsFile (path : String) : IO (Except FileError String) := do
  try
    return .ok (← IO.FS.readFile path)
  catch
    | .noFileOrDirectory .. => return .error .notFound
    | .inappropriateType .. => return .error .isFolder
    | e => return .error (.other e.toString)

/-- The replies to the lines of the standard input, one after the other. -/
partial def converse (input output : IO.FS.Stream) (d : Dialogue) : IO Unit := do
  let text ← input.getLine
  if text.isEmpty then output.putStr Dialogue.endOfInput
  else if Dialogue.isIdle text.toList then converse input output d
  else
    match d.handleLine text.toList with
    | (.output reply, next) =>
        output.putStr reply
        output.flush
        converse input output next
    | (.quit, _) => output.putStr Dialogue.farewell

/-- Runs the command line and returns its exit code. -/
def runProgram (arguments : List String) : IO UInt32 := do
  let output ← IO.getStdout
  match Invocation.read arguments with
  | .error refusal =>
      let answer := refusal.answer plainWording arguments
      output.putStr answer.output
      return answer.exitCode.toUInt32
  | .ok invocation =>
      let content ← readSettingsFile (invocation.config.getD defaultSettingsFile)
      let files : Files := fun _ => content
      match invocation.command, loadSettings plainWording files invocation.config with
      | .dialogue, .ok settings =>
          output.putStr Dialogue.greeting
          output.flush
          converse (← IO.getStdin) output (.ofSettings settings)
          return 0
      | _, _ =>
          let answer := invocation.run plainWording files []
          output.putStr answer.output
          return answer.exitCode.toUInt32

end Stepwise

def main (arguments : List String) : IO UInt32 := Stepwise.runProgram arguments
