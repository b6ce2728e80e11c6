import MiniPL.Syntax
import MiniPL.Text.Outline

/-!
# Outlines of syntax trees

A tree is shown as an outline: every node is a record that starts with what the node
is called. Positions and labels are left out, nothing else is.
-/

namespace MiniPL

variable {α : Type}

namespace Outline

/-- A text as a leaf. -/
def word (s : String) : Outline := leaf (.text s)

/-- What is not there. -/
def absent : Outline := leaf .none

/-- The record of a node that is called `title`. -/
def node (title : String) (fields : List (String × Outline)) : Outline :=
  record (("type", word title) :: fields)

end Outline

open Outline (word absent node)

mutual

/-- The outline of an operand. -/
def Operand.outline : Operand α → Outline
  | .literal _ l => node "Literal" [("value", word l.lexeme.shown)]
  | .var _ x => node "Var" [("name", word x)]
  | .group _ e => node "Group" [("expr", e.outline)]

/-- The outline of an expression. -/
def Expr.outline : Expr α → Outline
  | .single _ o => node "Single" [("operand", o.outline)]
  | .negation _ _ o => node "Unary" [("op", word Symbol.bang.text), ("operand", o.outline)]
  | .binary _ l op _ r =>
    node "Binary" [("op", word op.symbol.text), ("left", l.outline), ("right", r.outline)]

end

/-- The outline of a list of statements. -/
def Outline.statements (items : List Outline) : Outline :=
  node "StatementList" [("statements", .list items)]

mutual

/-- The outline of a statement. -/
def Stmt.outline : Stmt α → Outline
  | .declare _ x ty none =>
    node "Declare" [("name", word x), ("var_type", word ty.text), ("value", absent)]
  | .declare _ x ty (some e) =>
    node "Declare" [("name", word x), ("var_type", word ty.text), ("value", e.outline)]
  | .assign _ x e => node "Assign" [("name", word x), ("value", e.outline)]
  | .forLoop _ x a b body =>
    node "For" [("var_name", word x), ("start", a.outline), ("end", b.outline),
      ("body", .statements (Block.outlines body))]
  | .ifThen _ c body =>
    node "If" [("condition", c.outline), ("then_block", .statements (Block.outlines body)),
      ("else_block", absent)]
  | .ifElse _ c body otherwise =>
    node "If" [("condition", c.outline), ("then_block", .statements (Block.outlines body)),
      ("else_block", .statements (Block.outlines otherwise))]
  | .print _ e => node "Print" [("expr", e.outline)]
  | .read _ x => node "Read" [("name", word x)]
  | .assert _ c => node "Assert" [("condition", c.outline)]

/-- The outlines of the statements of a block. -/
def Block.outlines : Block α → List Outline
  | [] => []
  | s :: rest => s.outline :: Block.outlines rest

end

/-- The outline of a program. A program without statements has no list of them. -/
def Block.outline (program : Block α) : Outline :=
  node "Program"
    [("statements", if program.isEmpty then absent else .statements (Block.outlines program))]

end MiniPL
