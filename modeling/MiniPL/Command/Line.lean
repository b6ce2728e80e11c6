import MiniPL.Command.File
import MiniPL.Command.Interactive

/-!
# Command lines

A command line is `repl`, or a command with a file. Two switches may stand anywhere in
it: `--debug` shows the log, and `--no-color` takes the colours from the diagnostics,
which otherwise have them if the error output is a terminal. Each switch is taken out
of the command line once; given twice, it is an argument like any other.

A command line of another form is answered with the usage.
-/

namespace MiniPL

/-- What a command line asks for. -/
inductive Request
  | usage
  | interactive
  | onFile (command path : String)
  deriving DecidableEq, Repr

namespace Request

/-- The usage. -/
def usageText : String :=
  "Usage:\n" ++
  "  minipl tokens <file.mpl>\n" ++
  "  minipl parse <file.mpl>\n" ++
  "  minipl check <file.mpl>\n" ++
  "  minipl run <file.mpl>\n" ++
  "  minipl repl\n" ++
  "  (optional) --debug to show Python traceback and debug logging\n" ++
  "  (optional) --no-color to disable colored diagnostics\n"

/-- The switch that shows the log. -/
def debugSwitch : String := "--debug"

/-- The switch that takes away the colours. -/
def plainSwitch : String := "--no-color"

/-- What the arguments other than switches ask for. -/
def ofArguments : List String → Request
  | ["repl"] => interactive
  | "repl" :: _ => usage
  | [command, path] => onFile command path
  | _ => usage

/-- What a command line asks for. -/
def ofLine (args : List String) : Request :=
  ofArguments ((args.erase debugSwitch).erase plainSwitch)

/-- How a command line wants events shown, on a terminal or elsewhere. -/
def display (args : List String) (terminal : Bool) : Display :=
  ⟨args.contains debugSwitch, terminal && !args.contains plainSwitch⟩

/-- What is done for a request: `files` gives the bytes of the files that there are, and
    `lines` are those of the input. -/
def answer (files : String → Option ByteArray) (lines : List String) : Request → Transcript
  | usage => ⟨[.wrote usageText], 1⟩
  | interactive => Interactive.session lines
  | onFile command path =>
    let entry := Event.log (.command command path)
    match FileCommand.ofText? command with
    | none => ⟨[entry, .wrote s!"Unknown command: {command}\n"], 1⟩
    | some c =>
      let t := c.perform path (files path) lines
      { t with events := entry :: t.events }

/-- The path of the file that a request needs. -/
def path? : Request → Option String
  | onFile _ path => some path
  | _ => none

/-- Whether a request may need input. -/
def needsInput : Request → Bool
  | interactive => true
  | onFile command _ => command = FileCommand.run.text
  | usage => false

end Request

end MiniPL
