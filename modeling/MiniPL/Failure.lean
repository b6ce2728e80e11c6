import MiniPL.Diagnostic
import MiniPL.Execution
import MiniPL.Grammar.Program
import MiniPL.Typing

/-!
# Failures

A program fails in the first phase that finds something wrong: its file cannot be
read, it has a lexical fault, syntax faults, semantic faults, or its run ends before
the end of the program. All but the last cases of the last one are failures of the
program and have diagnostics. A conversion of an integer that is refused has a plain
message instead (`Explanation`).
-/

namespace MiniPL

/-- What is wrong with a file. -/
inductive FileFault
  | missing
  /-- Its bytes are no text, from the given offset on. -/
  | notText (offset : Nat)
  deriving DecidableEq, Repr

/-- Why a program fails. -/
inductive Failure
  | file (path : String) (f : FileFault)
  | lexical (rejection : Rejection)
  | syntactic (faults : List (Located SyntaxFault))
  | semantic (faults : List (Located SemanticFault))
  | halted (h : Halt)
  deriving DecidableEq, Repr

/-- How a failure is explained. -/
inductive Explanation
  | report (r : Report)
  | plain (message : String)
  deriving DecidableEq, Repr

/-- The wording of a fault of the file at `path`. -/
def FileFault.message (path : String) : FileFault → String
  | missing => s!"File {path} does not exist"
  | notText offset => s!"Unable to read file {path}: not valid UTF-8 (byte {offset})"

/-- The kind of the diagnostic of a fault. -/
def FileFault.kind : FileFault → Diagnostic.Kind
  | missing => .fileMissing
  | notText _ => .fileUnreadable

/-- The diagnostic of a fault at a position. -/
def Located.diagnostic {φ : Type} (kind : Diagnostic.Kind) (message : φ → String)
    (f : Located φ) : Diagnostic :=
  ⟨kind, message f.thing, some f.pos⟩

namespace Failure

/-- The explanation of a failure. -/
def explain : Failure → Explanation
  | file path f => .report (.single ⟨f.kind, f.message path, none⟩)
  | lexical r => .report (.single (r.diagnostic .lexical LexicalFault.message))
  | syntactic fs => .report (.batch (fs.map (·.diagnostic .syntactic SyntaxFault.message)))
  | semantic fs => .report (.batch (fs.map (·.diagnostic .semantic SemanticFault.message)))
  | halted (.fault f) => .report (.single (f.diagnostic .runtime RuntimeFault.message))
  | halted (.conversion c) => .plain c.message
  | halted .stuck => .plain "operation on values that it is not defined on"

/-- The failure of parsing. -/
def ofParse : ParseFailure → Failure
  | .lexical r => lexical r
  | .syntactic fs => syntactic fs

end Failure

end MiniPL
