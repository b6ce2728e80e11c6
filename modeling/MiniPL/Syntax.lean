import MiniPL.Token

/-!
# Syntax trees

A program is a list of statements; the blocks of a loop and of a branch are lists of
statements too. An expression is an operand, a negated operand, or two operands with
one operator between them: there is no precedence, larger expressions are made with
parentheses, as a group is an operand.

Trees keep the positions that diagnostics speak of. An expression, like an operand,
stands where its first token stands (`Expr.pos`). A statement stands at its keyword
if it is a branch, an output or an assertion, and at the name it declares or changes
otherwise (`Stmt.pos`).

Every expression carries a label: none in the tree as parsed, its number once the
expressions of a program are numbered (`MiniPL.Syntax.Numbering`).
-/

namespace MiniPL

/-- The types of variables. -/
inductive Ty
  | int
  | string
  | bool
  deriving DecidableEq, Repr

/-- The operators between two operands. -/
inductive BinOp
  | add
  | sub
  | mul
  | div
  | eq
  | lt
  | gt
  | and
  deriving DecidableEq, Repr

/-- The literals: a row of digits, or the content of a text literal. -/
inductive Literal
  | int (digits : String)
  | text (content : String)
  deriving DecidableEq, Repr

mutual

/-- An operand, in its place. -/
inductive Operand (α : Type)
  | literal (pos : Pos) (l : Literal)
  | var (pos : Pos) (name : String)
  | group (pos : Pos) (inner : Expr α)

/-- An expression, with its label. -/
inductive Expr (α : Type)
  | single (label : α) (operand : Operand α)
  | negation (label : α) (pos : Pos) (operand : Operand α)
  | binary (label : α) (left : Operand α) (op : BinOp) (opPos : Pos) (right : Operand α)

end

/-- A statement, in its place. -/
inductive Stmt (α : Type)
  | declare (pos : Pos) (name : String) (ty : Ty) (init : Option (Expr α))
  | assign (pos : Pos) (name : String) (value : Expr α)
  | forLoop (pos : Pos) (name : String) (first last : Expr α) (body : List (Stmt α))
  | ifThen (pos : Pos) (cond : Expr α) (body : List (Stmt α))
  | ifElse (pos : Pos) (cond : Expr α) (body otherwise : List (Stmt α))
  | print (pos : Pos) (value : Expr α)
  | read (pos : Pos) (name : String)
  | assert (pos : Pos) (cond : Expr α)

/-- A program, or a block of one. -/
abbrev Block (α : Type) := List (Stmt α)

/-- How a type is written. -/
def Ty.text : Ty → String
  | .int => "int"
  | .string => "string"
  | .bool => "bool"

/-- The symbol of an operator. -/
def BinOp.symbol : BinOp → Symbol
  | .add => .plus
  | .sub => .minus
  | .mul => .star
  | .div => .slash
  | .eq => .equal
  | .lt => .less
  | .gt => .greater
  | .and => .ampersand

/-- The operator with a symbol. -/
def Symbol.binOp? : Symbol → Option BinOp
  | .plus => some .add
  | .minus => some .sub
  | .star => some .mul
  | .slash => some .div
  | .equal => some .eq
  | .less => some .lt
  | .greater => some .gt
  | .ampersand => some .and
  | _ => none

/-- A symbol is that of an operator if and only if the operator is found by it. -/
theorem Symbol.binOp?_eq_some_iff {s : Symbol} {op : BinOp} :
    s.binOp? = some op ↔ op.symbol = s := by
  cases s <;> cases op <;> decide

/-- The operator that a lexeme is. -/
def Lexeme.binOp? : Lexeme → Option BinOp
  | .symbol s => s.binOp?
  | _ => none

/-- The token of a literal. -/
def Literal.lexeme : Literal → Lexeme
  | .int digits => .int digits
  | .text content => .text content

/-- Where an operand stands. -/
def Operand.pos {α : Type} : Operand α → Pos
  | .literal p _ => p
  | .var p _ => p
  | .group p _ => p

namespace Expr

variable {α : Type}

/-- Where an expression stands. -/
def pos : Expr α → Pos
  | single _ o => o.pos
  | negation _ p _ => p
  | binary _ l .. => l.pos

/-- The label of an expression. -/
def label : Expr α → α
  | single a _ => a
  | negation a .. => a
  | binary a .. => a

end Expr

namespace Stmt

variable {α : Type}

/-- Where a statement stands. -/
def pos : Stmt α → Pos
  | declare p .. => p
  | assign p .. => p
  | forLoop p .. => p
  | ifThen p .. => p
  | ifElse p .. => p
  | print p _ => p
  | read p _ => p
  | assert p _ => p

/-- What a statement is called. -/
def title : Stmt α → String
  | declare .. => "Declare"
  | assign .. => "Assign"
  | forLoop .. => "For"
  | ifThen .. => "If"
  | ifElse .. => "If"
  | print .. => "Print"
  | read .. => "Read"
  | assert .. => "Assert"

end Stmt

end MiniPL
