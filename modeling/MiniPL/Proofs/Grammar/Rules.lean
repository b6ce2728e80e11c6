import MiniPL.Grammar.Program

/-!
# The rules apart from their reader

The rules of the grammar do three things with tokens only: they look at the current item, they
advance to the next one, and they refuse an item (`TokenReader`). Here they are stated for whatever
can do these things. On a `Reader` they are the readings that parse a program
(`Rules.start_reading`, `Rules.closing_reading`); on another reader, which keeps account of what it
is asked for, they do what these readings do, and tell how often they advance.
-/

namespace MiniPL

/-- What the rules of the grammar need of a reader of tokens. -/
class TokenReader (m : Type → Type) extends Monad m where
  /-- The current item. -/
  peek : m Item
  /-- Goes on to the next item. -/
  advance : m Unit
  /-- Stops at a fault. -/
  refuse {α : Type} (fault : SyntaxFault) (pos : Pos) : m α

instance : TokenReader Reading where
  peek := Reading.peek
  advance := Reading.advance
  refuse := Reading.refuse

namespace Rules

open TokenReader (peek advance refuse)

variable {m : Type → Type} [TokenReader m]

/-! ## Tokens -/

/-- Reads the current token, which must be of the given kind. -/
def expect (kind : Kind) : m Pos := do
  let item ← peek
  if item.kind = kind then
    advance
    return item.pos
  else refuse (.unexpected item.kind [kind]) item.pos

/-- Reads a name. -/
def expectName : m (Pos × String) := do
  match ← peek with
  | .token ⟨.name x, p⟩ =>
    advance
    return (p, x)
  | item => refuse (.unexpected item.kind [.name]) item.pos

/-- Reads a type. -/
def expectType : m Ty := do
  match ← peek with
  | .token ⟨.keyword .intK, _⟩ =>
    advance
    return .int
  | .token ⟨.keyword .stringK, _⟩ =>
    advance
    return .string
  | .token ⟨.keyword .boolK, _⟩ =>
    advance
    return .bool
  | item =>
    refuse (.unexpected item.kind [.keyword .intK, .keyword .stringK, .keyword .boolK]) item.pos

/-! ## Expressions -/

/-- The operator that the current item is. -/
def peekOperator : m (Option (BinOp × Pos)) := do
  match ← peek with
  | .token t => return t.lexeme.binOp?.map (·, t.pos)
  | .eof _ => return none

/-- Reads an operand, with `inner` for what stands in parentheses. -/
def operand (inner : m (Expr Unit)) : m (Operand Unit) := do
  match ← peek with
  | .token ⟨.int digits, p⟩ =>
    advance
    return .literal p (.int digits)
  | .token ⟨.text content, p⟩ =>
    advance
    return .literal p (.text content)
  | .token ⟨.name x, p⟩ =>
    advance
    return .var p x
  | .token ⟨.symbol .openParen, p⟩ =>
    advance
    let e ← inner
    let _ ← expect (.symbol .closeParen)
    return .group p e
  | item => refuse (.unexpected item.kind []) item.pos

/-- Reads an operand after a negation sign at `p`. -/
def negated (inner : m (Expr Unit)) (p : Pos) : m (Expr Unit) := do
  let o ← operand inner
  let item ← peek
  match ← peekOperator with
  | some _ => refuse (.unexpected item.kind []) item.pos
  | none => return .negation () p o

/-- Reads an operand, and an operator with a second one if there is an operator. -/
def joined (inner : m (Expr Unit)) : m (Expr Unit) := do
  let left ← operand inner
  match ← peekOperator with
  | some (op, p) =>
    advance
    let right ← operand inner
    return .binary () left op p right
  | none => return .single () left

/-- Reads an expression in which less than `depth` parentheses are open at a time. -/
def exprWithin : (depth : Nat) → m (Expr Unit)
  | 0 => do
    let item ← peek
    refuse .nestedTooDeeply item.pos
  | depth + 1 => do
    match ← peek with
    | .token ⟨.symbol .bang, p⟩ =>
      advance
      negated (exprWithin depth) p
    | _ => joined (exprWithin depth)

/-- Reads an expression. -/
def expr : m (Expr Unit) := exprWithin (Reading.nestingLimit + 1)

/-! ## Statements -/

/-- Reads a declaration. -/
def declaration : m Start := do
  let _ ← expect (.keyword .varK)
  let (p, x) ← expectName
  let _ ← expect (.symbol .colon)
  let ty ← expectType
  match ← peek with
  | .token ⟨.symbol .assign, _⟩ =>
    advance
    let e ← expr
    return .whole (.declare p x ty (some e))
  | _ => return .whole (.declare p x ty none)

/-- Reads an assignment. -/
def assignment : m Start := do
  let (p, x) ← expectName
  let _ ← expect (.symbol .assign)
  let e ← expr
  return .whole (.assign p x e)

/-- Reads an output. -/
def output : m Start := do
  let p ← expect (.keyword .printK)
  let e ← expr
  return .whole (.print p e)

/-- Reads an input. -/
def input : m Start := do
  let _ ← expect (.keyword .readK)
  let (p, x) ← expectName
  return .whole (.read p x)

/-- Reads an assertion. -/
def assertion : m Start := do
  let p ← expect (.keyword .assertK)
  let _ ← expect (.symbol .openParen)
  let c ← expr
  let _ ← expect (.symbol .closeParen)
  return .whole (.assert p c)

/-- Reads a loop up to its block. -/
def loopHead : m Start := do
  let _ ← expect (.keyword .forK)
  let (p, x) ← expectName
  let _ ← expect (.keyword .inK)
  let a ← expr
  let _ ← expect (.symbol .range)
  let b ← expr
  let _ ← expect (.keyword .doK)
  return .opening (.forLoop p x a b)

/-- Reads a branch up to its block. -/
def branchHead : m Start := do
  let p ← expect (.keyword .ifK)
  let c ← expr
  let _ ← expect (.keyword .doK)
  return .opening (.ifThen p c)

/-- Reads what a statement starts with. The first token decides the form. -/
def start : m Start := do
  match ← peek with
  | .token ⟨.keyword .varK, _⟩ => declaration
  | .token ⟨.name _, _⟩ => assignment
  | .token ⟨.keyword .forK, _⟩ => loopHead
  | .token ⟨.keyword .ifK, _⟩ => branchHead
  | .token ⟨.keyword .printK, _⟩ => output
  | .token ⟨.keyword .readK, _⟩ => input
  | .token ⟨.keyword .assertK, _⟩ => assertion
  | item => refuse (.illegalStart item.kind) item.pos

/-- Reads the end of a block, with the keyword that belongs to its opener. -/
def closing (o : Opener) : m Unit := do
  let _ ← expect (.keyword .endK)
  let _ ← expect (.keyword o.keyword)

/-- Expects the end of the program after the expression `e`. -/
def finish (e : Expr Unit) : m (Expr Unit) := do
  match ← peek with
  | .eof _ => return e
  | item => refuse (.unexpected item.kind [.eof]) item.pos

/-- Reads an expression, which may have a semicolon after it, up to the end. -/
def loneExpr : m (Expr Unit) := do
  let e ← expr
  if (← peek).kind = .symbol .semicolon then advance
  finish e

/-! ## On a reader -/

theorem exprWithin_reading (depth : Nat) :
    (exprWithin depth : Reading (Expr Unit)) = Reading.exprWithin depth := by
  induction depth with
  | zero => rfl
  | succ depth ih =>
    rw [exprWithin, ih]
    rfl

theorem expr_reading : (expr : Reading (Expr Unit)) = Reading.expr := exprWithin_reading _

/-- On a reader, what a statement starts with is read as a program is parsed. -/
theorem start_reading : (start : Reading Start) = Reading.start := by
  simp only [start, declaration, assignment, loopHead, branchHead, output, assertion, expr_reading]
  rfl

theorem loneExpr_reading : (loneExpr : Reading (Expr Unit)) = Reading.loneExpr := by
  simp only [loneExpr, finish, expr_reading]
  rfl

theorem closing_reading (o : Opener) : (closing o : Reading Unit) = Reading.closing o := rfl

end Rules

end MiniPL
