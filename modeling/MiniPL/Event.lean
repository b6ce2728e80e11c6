import MiniPL.Failure
import MiniPL.Log

/-!
# Events

All that handling a program shows to the outside is a list of events, in order: lines
of the log, output, requests for lines of input, and explanations of failures.
-/

namespace MiniPL

/-- What may happen when a program is handled. -/
inductive Event
  | log (e : LogEntry)
  /-- Text goes to the output. -/
  | wrote (text : String)
  /-- A line of input is asked for. -/
  | asked
  /-- A failure is explained to the user, with the text of the program if there is one. -/
  | explained (e : Explanation) (source? : Option String)
  deriving DecidableEq, Repr

/-- An event of a run, among all events. -/
def RunEvent.toEvent : RunEvent → Event
  | executing title pos => .log (.executing title pos)
  | wrote text => .wrote text
  | read => .asked

namespace Event

/-- The text that goes to the output, if it is an event of output. -/
def written? : Event → Option String
  | wrote text => some text
  | _ => none

end Event

/-- A result, or a failure, with the log of how it came about. -/
structure Logged (α : Type) where
  log : List LogEntry
  result : Except Failure α

namespace Logged

variable {α β : Type}

/-- Goes on with a result. -/
def bind (x : Logged α) (f : α → Logged β) : Logged β :=
  match x.result with
  | .ok a => ⟨x.log ++ (f a).log, (f a).result⟩
  | .error e => ⟨x.log, .error e⟩

/-- What happened, as events. -/
def events (x : Logged α) : List Event := x.log.map .log

end Logged

end MiniPL
