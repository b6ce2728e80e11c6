import MiniPL.Program

/-!
# Sessions

A session is a row of steps on one store. Besides whole programs, it takes *snippets*:
a snippet is a program, or else, if it has syntax faults as a program, a lone
expression, which stands for a program that writes its value. A snippet that is not
accepted, because it is neither or because its check fails, leaves the store as it
was. One that is accepted is run on the store with its declarations; these stay, and
so does what the run changes, even if the run fails.
-/

namespace MiniPL

/-- A snippet that has been accepted. -/
structure Snippet where
  program : Block Nat
  /-- The variables, with those that the snippet declares. -/
  store : Store VarType
  /-- Whether the snippet is a lone expression. -/
  echo : Bool

namespace Snippet

/-- The program of a snippet, and whether it is a lone expression. A snippet that is
    neither has the syntax faults of a program. -/
def parse (source : String) : Logged (Block Nat × Bool) :=
  let program := parseProgram source
  match program.result with
  | .ok p => ⟨program.log, .ok (p, false)⟩
  | .error (.syntactic faults) =>
    let expression := parseLoneExpr source
    let log := program.log ++ expression.log
    match expression.result with
    | .ok e => ⟨log, .ok ([.print e.pos e], true)⟩
    | .error _ => ⟨log, .error (.syntactic faults)⟩
  | .error e => ⟨program.log, .error e⟩

/-- Parses and checks a snippet. -/
def accept (σ : Store VarType) (source : String) : Logged Snippet :=
  (parse source).bind fun (program, echo) =>
    (checkProgram σ program).bind fun τ => ⟨[], .ok ⟨program, τ, echo⟩⟩

end Snippet

namespace Session

/-- What may be done in a session. -/
inductive Step
  | run (source : String) (lines : List (Option String))
  | check (source : String)
  | snippet (source : String) (lines : List (Option String))
  | clear

/-- The outcome of a snippet, and whether it is a lone expression, if it is accepted. -/
def runSnippet (σ : Store VarType) (source : String) (lines : List (Option String)) :
    Outcome × Option Bool :=
  let accepted := Snippet.accept σ source
  match accepted.result with
  | .ok s => (.ofRun accepted.events s.program s.store lines, some s.echo)
  | .error e => (⟨accepted.events, σ, some e⟩, none)

/-- Does one step. -/
def step (σ : Store VarType) : Step → Outcome
  | .run source lines => runText σ source lines
  | .check source => checkText σ source
  | .snippet source lines => (runSnippet σ source lines).1
  | .clear => ⟨[], .empty, none⟩

end Session

end MiniPL
