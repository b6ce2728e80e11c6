import MiniPL.Event
import MiniPL.Syntax.Numbering

/-!
# Handling a program

A program is parsed, checked against the variables that there are, and run. The
outcome has all events on the way, and the variables at the end: what a program
declares stays even if the check fails, and what its run has changed stays even if the
run fails. Only a program that is not parsed changes nothing.
-/

namespace MiniPL

/-- Parses a program, and numbers its expressions. -/
def parseProgram (source : String) : Logged (Block Nat) :=
  let stream := Stream.ofSource source
  let parse := stream.parse
  let log := (parse.events stream).map .parsing
  match parse.result with
  | .ok program => ⟨log ++ [.parsedProgram program.length], .ok program.number⟩
  | .error e => ⟨log, .error (.ofParse e)⟩

/-- Parses a lone expression, and numbers the expressions in it. -/
def parseLoneExpr (source : String) : Logged (Expr Nat) :=
  let stream := Stream.ofSource source
  let parse := stream.parseExpr
  ⟨(parse.events stream).map .parsing, (parse.result.map Expr.number).mapError .ofParse⟩

/-- Checks a program against the variables that there are, and gives the variables
    after it. -/
def checkProgram (σ : Store VarType) (program : Block Nat) : Logged (Store VarType) :=
  let faults := Block.faults σ program
  ⟨[.analysed faults.length],
    if faults.isEmpty then .ok (Block.extend σ program) else .error (.semantic faults)⟩

/-- How handling a program comes out. -/
structure Outcome where
  events : List Event
  store : Store VarType
  failure? : Option Failure

namespace Outcome

/-- What was written. -/
def writes (o : Outcome) : List String := o.events.filterMap Event.written?

/-- How many lines were asked for. -/
def reads (o : Outcome) : Nat := o.events.count .asked

/-- The outcome of running a program that has been checked, after the given events. -/
def ofRun (before : List Event) (program : Block Nat) (σ : Store VarType)
    (lines : List (Option String)) : Outcome :=
  let result := Block.exec program (.start σ lines)
  ⟨before ++ result.run.events.map RunEvent.toEvent, result.run.store,
    result.halt?.map .halted⟩

end Outcome

/-- Parses and checks the program `source`. -/
def checkText (σ : Store VarType) (source : String) : Outcome :=
  let parse := parseProgram source
  match parse.result with
  | .error e => ⟨parse.events, σ, some e⟩
  | .ok program =>
    let check := checkProgram σ program
    let events := parse.events ++ check.events
    match check.result with
    | .error e => ⟨events, Block.extend σ program, some e⟩
    | .ok τ => ⟨events, τ, none⟩

/-- Runs the program `source`, with the given lines as input. -/
def runText (σ : Store VarType) (source : String) (lines : List (Option String)) : Outcome :=
  let parse := parseProgram source
  match parse.result with
  | .error e => ⟨parse.events, σ, some e⟩
  | .ok program =>
    let check := checkProgram σ program
    let events := parse.events ++ check.events
    match check.result with
    | .error e => ⟨events, Block.extend σ program, some e⟩
    | .ok τ => .ofRun events program τ lines

end MiniPL
