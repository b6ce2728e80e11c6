import MiniPL.Token

/-!
# Syntax faults

A syntax fault is a reason why a row of tokens is not a program. It knows tokens by
their kinds only.
-/

namespace MiniPL

/-- Why a row of tokens is not a program. -/
inductive SyntaxFault
  /-- Something else should stand here; what, if it can be listed. -/
  | unexpected (found : Kind) (expected : List Kind)
  /-- No statement starts like this. -/
  | illegalStart (found : Kind)
  /-- A statement is not followed by a semicolon. -/
  | missingSemicolon
  /-- The program ends inside a block. -/
  | unclosedBlock
  /-- Parentheses are nested too deeply. -/
  | nestedTooDeeply
  deriving DecidableEq, Repr

namespace SyntaxFault

/-- The wording of a fault. -/
def message : SyntaxFault → String
  | unexpected found [] => s!"Unexpected token {found.label}"
  | unexpected found expected =>
      let labels := " or ".intercalate (expected.map Kind.label)
      s!"Unexpected token {found.label} (expected {labels})"
  | illegalStart found => s!"Illegal token {found.label}"
  | missingSemicolon => "Missing semicolon"
  | unclosedBlock =>
      s!"Unexpected token {Kind.eof.label} (expected {Keyword.endK.label})"
  | nestedTooDeeply => "Expression nested too deeply"

/-- Whether a fault ends the statement in which it is found. A missing semicolon is
    only noted, and at the end of the program there is nothing left to end. -/
def endsStatement : SyntaxFault → Bool
  | unexpected .. => true
  | illegalStart _ => true
  | nestedTooDeeply => true
  | missingSemicolon => false
  | unclosedBlock => false

end SyntaxFault

end MiniPL
