/-!
# Positions

A position in program text is a line and a column, both counted from 1. A line
feed ends a line; every other character, a tab included, takes one column.

Positions are integers, not naturals: a diagnostic made by a caller may carry any
two numbers, and the place of a caret is a difference of columns.
-/

namespace MiniPL

/-- A line and a column. -/
structure Pos where
  line : Int
  column : Int
  deriving DecidableEq, Repr, Inhabited

namespace Pos

/-- Where a text starts. -/
def start : Pos := ⟨1, 1⟩

/-- The position after the character `c` at `p`. -/
def after (p : Pos) (c : Char) : Pos :=
  if c = '\n' then ⟨p.line + 1, 1⟩ else ⟨p.line, p.column + 1⟩

/-- The position after the characters `cs` from `p` on. -/
def advance (p : Pos) (cs : List Char) : Pos :=
  cs.foldl after p

/-- `line:column`. -/
def text (p : Pos) : String := s!"{p.line}:{p.column}"

@[simp] theorem advance_nil (p : Pos) : p.advance [] = p := rfl

@[simp] theorem advance_cons (p : Pos) (c : Char) (cs : List Char) :
    p.advance (c :: cs) = (p.after c).advance cs := rfl

@[simp] theorem advance_append (p : Pos) (cs ds : List Char) :
    p.advance (cs ++ ds) = (p.advance cs).advance ds :=
  List.foldl_append

end Pos

/-- A thing found at a position. -/
structure Located (α : Type) where
  thing : α
  pos : Pos
  deriving DecidableEq, Repr

end MiniPL
