import MiniPL.Position
import MiniPL.Text.Lines

/-!
# Diagnostics

A diagnostic has a kind, a message, and possibly a position. It is written as
`kind: message on line … column …`. If the program text is at hand, the line of the
position is shown below, without the blanks before it, and a caret under the column.
What pads the line of the caret is a space for each character of the line, but a tab
for a tab, so that the caret stands in its column however wide tabs are. A column
after the end of the line has its caret right after the line.

A failure may have several diagnostics (`Report`). They are shown one after the
other.
-/

namespace MiniPL

/-- The kinds of diagnostics. -/
inductive Diagnostic.Kind
  | general
  | lexical
  | syntactic
  | semantic
  | runtime
  | fileMissing
  | fileUnreadable
  deriving DecidableEq, Repr

/-- What a kind is called. -/
def Diagnostic.Kind.label : Kind → String
  | general => "Error"
  | lexical => "LexicalError"
  | syntactic => "SyntaxError"
  | semantic => "SemanticError"
  | runtime => "RuntimeError"
  | fileMissing => "FileNotFoundError"
  | fileUnreadable => "FileReadError"

/-- A message of a kind, and where it belongs. -/
structure Diagnostic where
  kind : Diagnostic.Kind
  message : String
  pos? : Option Pos
  deriving DecidableEq, Repr

namespace Diagnostic

/-- The diagnostic in one line. -/
def text (d : Diagnostic) : String :=
  match d.pos? with
  | none => s!"{d.kind.label}: {d.message}"
  | some p => s!"{d.kind.label}: {d.message} on line {p.line} column {p.column}"

/-- The blanks that are not shown before a line. -/
def isMargin (c : Char) : Bool := c == ' ' || c == '\t'

/-- The line with the number `line` of a text, if the text has it. -/
def line? (source : String) (line : Int) : Option (List Char) :=
  if line < 1 then none else (Text.pieces source.toList)[(line - 1).toNat]?

/-- What pads a caret below the characters `cs`. -/
def padding (cs : List Char) : List Char :=
  cs.map fun c => if c = '\t' then '\t' else ' '

/-- A line of program text, and the line of the caret below it. -/
def excerpt (raw : List Char) (column : Int) : List Char × List Char :=
  let shown := raw.dropWhile isMargin
  let margin := raw.length - shown.length
  (shown, padding (shown.take (column - 1 - margin).toNat) ++ ['^'])

/-- The diagnostic, with the line of its position if the text of the program is there
    and has that line. -/
def render (d : Diagnostic) (source? : Option String) : String :=
  match d.pos?, source? with
  | some p, some source =>
    if source = "" then d.text
    else
      match line? source p.line with
      | some raw =>
        let (shown, caret) := excerpt raw p.column
        .ofList (d.text.toList ++ '\n' :: shown ++ '\n' :: caret)
      | none => d.text
  | _, _ => d.text

/-! ## Colours -/

/-- The characters up to the first line feed, and those after it if there is one. -/
def splitFirstLine (cs : List Char) : List Char × List Char :=
  (cs.takeWhile (· != '\n'), (cs.dropWhile (· != '\n')).tail)

/-- A rendered diagnostic with colours for a terminal: its first line red and bright,
    and what comes after its second line yellow. -/
def colored (rendered : String) : String :=
  let (header, rest) := splitFirstLine rendered.toList
  let (line, caret) := splitFirstLine rest
  let first := "\x1b[31m\x1b[1m" ++ .ofList header ++ "\x1b[0m"
  if rest.isEmpty then first
  else first ++ "\n" ++ .ofList line ++ "\n\x1b[33m" ++ .ofList caret ++ "\x1b[0m"

/-- The diagnostic as it is shown, with a line feed at its end. -/
def report (d : Diagnostic) (source? : Option String) (color : Bool) : String :=
  let rendered := d.render source?
  (if color then colored rendered else rendered) ++ "\n"

end Diagnostic

/-- The diagnostics of a failure: one, or all that one phase has found. -/
inductive Report
  | single (d : Diagnostic)
  | batch (ds : List Diagnostic)
  deriving DecidableEq, Repr

namespace Report

/-- The diagnostics. -/
def members : Report → List Diagnostic
  | single d => [d]
  | batch ds => ds

/-- The message of a report. -/
def message : Report → String
  | single d => d.message
  | batch ds => s!"{ds.length} error(s)"

/-- The diagnostics, each in one line. -/
def text : Report → String
  | single d => d.text
  | batch ds => "\n".intercalate (ds.map Diagnostic.text)

/-- The report with a line of the program. Several diagnostics show none. -/
def render (source? : Option String) : Report → String
  | single d => d.render source?
  | batch ds => (batch ds).text

/-- The report as it is shown. -/
def shown (source? : Option String) (color : Bool) (r : Report) : String :=
  .join (r.members.map (·.report source? color))

end Report

end MiniPL
