import MiniPL.Event

/-!
# Transcripts

What a command does is a *transcript*: the events, in order, and the exit code. The
switches for the log and for colours play no part in it; they only decide how the
explanations and the log are written to the error output (`Transcript.errorOutput`).
-/

namespace MiniPL

/-- What a command does. -/
structure Transcript where
  events : List Event
  exitCode : Nat

/-- How events are shown. -/
structure Display where
  /-- Whether the log is shown. -/
  log : Bool
  /-- Whether diagnostics have colours. -/
  color : Bool
  deriving DecidableEq, Repr

namespace Event

/-- What an event adds to the output. -/
def output : Event → String
  | wrote text => text
  | _ => ""

/-- What an event adds to the error output. -/
def errorOutput (d : Display) : Event → String
  | log e => if d.log then e.text else ""
  | explained (.report r) source? => r.shown source? d.color
  | explained (.plain message) _ => message ++ "\n"
  | _ => ""

end Event

namespace Transcript

/-- All that goes to the output. -/
def output (t : Transcript) : String := .join (t.events.map Event.output)

/-- All that goes to the error output. -/
def errorOutput (t : Transcript) (d : Display) : String :=
  .join (t.events.map (·.errorOutput d))

/-- The transcript of a failure after the given events. -/
def failed (events : List Event) (e : Explanation) (source? : Option String) : Transcript :=
  ⟨events ++ [.explained e source?], 1⟩

/-- The transcript of writing a text after the given events. -/
def done (events : List Event) (text : String) : Transcript :=
  ⟨events ++ [.wrote text], 0⟩

/-- How many events there are up to and including the one that asks for line `n`,
    counted from 0, if that line is asked for. -/
def askedAt? (t : Transcript) (n : Nat) : Option Nat :=
  go n t.events
where
  /-- The same within a list of events. -/
  go : Nat → List Event → Option Nat
    | _, [] => none
    | 0, .asked :: _ => some 1
    | n + 1, .asked :: rest => (go n rest).map (· + 1)
    | n, _ :: rest => (go n rest).map (· + 1)

end Transcript

end MiniPL
