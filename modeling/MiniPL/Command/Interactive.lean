import MiniPL.Command.Transcript
import MiniPL.ProgramFile
import MiniPL.Session
import MiniPL.Session.Balance

/-!
# Interactive sessions

An interactive session reads snippets line by line and runs them on one store. A
snippet goes on for as many lines as it takes to close its blocks. Between snippets,
empty lines are passed over, and a line with one of the words in `quitWords` ends the
session. The input of a program that a snippet runs comes from the lines after the
snippet.

The output of a snippet is followed by a line feed if it does not end with one. (An
internal failure gets none, and neither does a snippet that writes nothing, unless it
is a lone expression.)
-/

namespace MiniPL

namespace Interactive

/-- What is shown first. -/
def banner : String := "Mini-PL REPL. Type :q to quit.\n"

/-- What is shown before a line is read, within a snippet or before one. -/
def prompt (inSnippet : Bool) : String := if inSnippet then "...> " else "minipl> "

/-- The words that end a session. -/
def quitWords : List String := [":q", ":quit", "quit", "exit"]

/-- The line feed after the output of a snippet that came out as told. -/
def closingBreak (writes : List String) (echo : Bool) (failure? : Option Failure) :
    List Event :=
  let due : Bool :=
    match failure? with
    | none => echo || writes.getLast?.any fun last => last.toList.getLast? != some '\n'
    | some e =>
      match e.explain with
      | .report _ => !writes.isEmpty
      | .plain _ => false
  if due then [.wrote "\n"] else []

/-- Handles a snippet, with the given lines after it. -/
def submit (σ : Store VarType) (source : String) (lines : List String) : Outcome :=
  let input := lines.map fun line => some (Text.dropReturns line)
  let (outcome, echo?) := Session.runSnippet σ source input
  let explanation := outcome.failure?.elim [] fun e => [Event.explained e.explain source]
  { outcome with
    events := outcome.events ++
      closingBreak outcome.writes (echo?.getD false) outcome.failure? ++ explanation }

/-- A session that goes on with the given lines. The lines of the snippet that has been
    started are in `held`, and `depth` blocks of it are open. -/
def continueFrom (σ : Store VarType) (held : List String) (depth : Int) : List String → List Event
  | [] => [.wrote (prompt (!held.isEmpty)), .asked, .wrote "\n"]
  | line :: rest =>
    let before := [.wrote (prompt (!held.isEmpty)), .asked]
    if held.isEmpty ∧ Text.trim line ∈ quitWords then before
    else if held.isEmpty ∧ Text.trim line = "" then before ++ continueFrom σ [] depth rest
    else
      let lines := held ++ [line]
      let (log, balance) := countBlocks line
      let before := before ++ log.map .log
      if depth + balance > 0 then before ++ continueFrom σ lines (depth + balance) rest
      else
        let outcome := submit σ (Text.unlines lines) rest
        before ++ outcome.events ++
          continueFrom outcome.store [] 0 (rest.drop outcome.reads)
termination_by lines => lines.length
decreasing_by all_goals (simp only [List.length_cons, List.length_drop]; omega)

/-- A session with the given lines. -/
def session (lines : List String) : Transcript :=
  ⟨.wrote banner :: continueFrom .empty [] 0 lines, 0⟩

end Interactive

end MiniPL
