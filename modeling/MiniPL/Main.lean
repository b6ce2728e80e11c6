import MiniPL.Command.Line

/-!
# The program

Reads what a request needs, and shows its transcript. Input that is not typed at a
terminal is read at once. At a terminal, the transcript is shown up to the point where
it asks for a line that has not been typed; with that line, the transcript is made
again and goes on from there, as what comes before does not depend on it.
-/

namespace MiniPL

/-- Shows events. -/
def showEvents (display : Display) (events : List Event) : IO Unit := do
  let out ← IO.getStdout
  let err ← IO.getStderr
  for e in events do
    out.putStr e.output
    out.flush
    err.putStr (e.errorOutput display)

/-- Shows a transcript that depends on the lines typed, of which the given number of
    events has been shown. -/
partial def converse (display : Display) (transcript : List String → Transcript)
    (typed : List String) (shown : Nat) : IO UInt32 := do
  let t := transcript typed
  match t.askedAt? typed.length with
  | none =>
    showEvents display (t.events.drop shown)
    return t.exitCode.toUInt32
  | some upTo =>
    showEvents display ((t.events.take upTo).drop shown)
    let line ← (← IO.getStdin).getLine
    if line.isEmpty then
      showEvents display (t.events.drop upTo)
      return t.exitCode.toUInt32
    else converse display transcript (typed ++ Text.inputLines line) upTo

/-- The bytes of a file, if there is one. -/
def fileBytes? (path : String) : IO (Option ByteArray) := do
  try
    return some (← IO.FS.readBinFile path)
  catch _ => return none

end MiniPL

open MiniPL in
/-- Does what the command line asks for. -/
def main (args : List String) : IO UInt32 := do
  let request := Request.ofLine args
  let display := Request.display args (← (← IO.getStderr).isTty)
  let bytes? ← match request.path? with
    | some path => fileBytes? path
    | none => pure none
  let transcript := fun lines => request.answer (fun _ => bytes?) lines
  let input ← IO.getStdin
  if request.needsInput then
    if ← input.isTty then converse display transcript [] 0
    else
      let t := transcript (Text.inputLines (← input.readToEnd))
      showEvents display t.events
      return t.exitCode.toUInt32
  else
    let t := transcript []
    showEvents display t.events
    return t.exitCode.toUInt32
