import MiniPL.Grammar.Program
import MiniPL.Execution
import MiniPL.Text.Quoted

/-!
# Logs and listings

A log tells, line by line, what happens while a program is read, checked and run.
Every line names the part of the program that it comes from. (Not all that happens
while a program is parsed is told: a missing semicolon is not.)

Tokens are listed in columns: the kind, what the token shows, in quotes, and its
position.
-/

namespace MiniPL

/-- What a log tells. -/
inductive LogEntry
  | command (name path : String)
  | loaded (path : String) (lines : Nat)
  | parsing (e : ParseEvent)
  | parsedProgram (statements : Nat)
  | analysed (faults : Nat)
  | executing (title : String) (pos : Pos)
  deriving DecidableEq, Repr

namespace Text

/-- The text, with spaces after it up to the given width. -/
def padRight (width : Nat) (s : String) : String :=
  s ++ .ofList (List.replicate (width - s.length) ' ')

end Text

/-- An item in columns, the second one of the given width. -/
def Item.columns (width : Nat) (i : Item) : String :=
  let kind := Text.padRight 15 i.kind.label
  let shown := Text.padRight width (Text.quoted i.shown)
  s!"{kind} {shown} {i.pos.text}"

/-- A line of the listing of tokens. -/
def Item.row (i : Item) : String := i.columns 30 ++ "\n"

namespace LogEntry

/-- The line for what happened while a program was parsed, if there is one. -/
def ofParseEvent : ParseEvent → Option String
  | .item i => some s!"lexer: token {i.columns 20}"
  | .fault f =>
    if f.thing.endsStatement then
      some s!"parser: syntax error at {f.pos.text}: {f.thing.message}"
    else none
  | .parsed title pos => some s!"parser: parsed {title} at {pos.text}"

/-- The line for an entry, if there is one. -/
def body : LogEntry → Option String
  | command name path => some s!"cli: command {name} on {path}"
  | loaded path lines => some s!"lexer: loaded {path} ({lines} lines)"
  | parsing e => ofParseEvent e
  | parsedProgram n => some s!"parser: parsed {n} top-level statement(s)"
  | analysed n => some s!"analyzer: analysis finished with {n} error(s)"
  | executing title pos => some s!"interpreter: executing {title} at {pos.text}"

/-- What an entry adds to the log. -/
def text (e : LogEntry) : String :=
  match e.body with
  | some body => "DEBUG " ++ body ++ "\n"
  | none => ""

end LogEntry

end MiniPL
