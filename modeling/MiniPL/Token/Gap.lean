/-!
# Gaps

Between tokens there may be *gaps*: spaces, tabs, line feeds, line comments from
`//` up to the end of the line, and block comments from `/*` to the next `*/`. (The
star that opens a block comment does not close it: `/*/` is not closed.) No other
white space separates tokens, not even the carriage return.

`Gap.measure` finds the longest gap that a text starts with.
-/

namespace MiniPL

/-- The longest gap at the start of a text. -/
inductive Gap
  /-- A gap of this length, with a lexeme or the end of the text after it. -/
  | closed (length : Nat)
  /-- A gap of this length, with a block comment after it that is not closed. -/
  | unclosed (length : Nat)
  deriving DecidableEq, Repr

namespace Gap

/-- The white space between tokens. -/
def isSpace (c : Char) : Bool :=
  c == ' ' || c == '\t' || c == '\n'

/-- The length of a text up to and including the first `*/`, counted from `n`. -/
def commentEnd (n : Nat) : List Char → Option Nat
  | [] => none
  | c :: cs =>
    if c = '*' ∧ cs.head? = some '/' then some (n + 2) else commentEnd (n + 1) cs

/-- The longest gap at the start of a text, with its length counted from `n`. -/
def measure (n : Nat) : List Char → Gap
  | [] => closed n
  | c :: cs =>
    if isSpace c then measure (n + 1) cs
    else if c = '/' ∧ cs.head? = some '/' then
      measure (n + 1 + (cs.takeWhile (· != '\n')).length) (cs.dropWhile (· != '\n'))
    else if c = '/' ∧ cs.head? = some '*' then
      match commentEnd 0 cs.tail with
      | some length => measure (n + 2 + length) (cs.tail.drop length)
      | none => unclosed n
    else closed n
termination_by cs => cs.length
decreasing_by
  · simp
  · have := (List.dropWhile_sublist (l := cs) (· != '\n')).length_le
    simp only [List.length_cons]
    omega
  · simp only [List.length_drop, List.length_tail, List.length_cons]
    omega

end Gap

end MiniPL
