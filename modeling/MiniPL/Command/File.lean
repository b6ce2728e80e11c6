import MiniPL.Command.Transcript
import MiniPL.Program
import MiniPL.ProgramFile
import MiniPL.Syntax.Dump

/-!
# Commands on a program file

* `tokens` lists the tokens, up to the first fault;
* `parse` shows the syntax tree;
* `check` checks declarations and types;
* `run` runs the program.

A failure is explained with the program's text, and the exit code is then 1. The file
not being there, or not being text, is a failure of all of them.
-/

namespace MiniPL

/-- What can be done with a program file. -/
inductive FileCommand
  | tokens
  | parse
  | check
  | run
  deriving DecidableEq, Repr

namespace FileCommand

/-- How a command is written. -/
def text : FileCommand → String
  | tokens => "tokens"
  | parse => "parse"
  | check => "check"
  | run => "run"

/-- The command that is written `word`. -/
def ofText? (word : String) : Option FileCommand :=
  [tokens, parse, check, run].find? (·.text = word)

/-- Lists the tokens of a program. -/
def listTokens (source : String) : Transcript :=
  let stream := Stream.ofSource source
  let events := stream.items.flatMap fun i => [.log (.parsing (.item i)), .wrote i.row]
  match stream.fault? with
  | some r => .failed events (Failure.lexical r).explain source
  | none => ⟨events, 0⟩

/-- Shows the syntax tree of a program. -/
def showTree (source : String) : Transcript :=
  let parse := parseProgram source
  match parse.result with
  | .ok program => .done parse.events ((Block.outline program).render 0 ++ "\n")
  | .error e => .failed parse.events e.explain source

/-- Checks a program. -/
def checkFile (source : String) : Transcript :=
  let outcome := checkText .empty source
  match outcome.failure? with
  | none => .done outcome.events "OK\n"
  | some e => .failed outcome.events e.explain source

/-- Marks a plain message as that of an unexpected failure. -/
def markInternal : Explanation → Explanation
  | .plain message => .plain s!"Internal error: {message}"
  | e => e

/-- Runs a program, with the given lines as input. -/
def runFile (source : String) (lines : List String) : Transcript :=
  let outcome := runText .empty source (lines.map fun line => some (Text.dropReturns line))
  match outcome.failure? with
  | none => ⟨outcome.events, 0⟩
  | some e => .failed outcome.events (markInternal e.explain) source

/-- Does what a command says with the program in the file at `path`, which holds the
    given bytes if it is there. -/
def perform (c : FileCommand) (path : String) (bytes? : Option ByteArray)
    (lines : List String) : Transcript :=
  let load := fileText path bytes?
  match load.result with
  | .error e => .failed load.events e.explain none
  | .ok source =>
    let t :=
      match c with
      | tokens => listTokens source
      | parse => showTree source
      | check => checkFile source
      | run => runFile source lines
    { t with events := load.events ++ t.events }

end FileCommand

end MiniPL
