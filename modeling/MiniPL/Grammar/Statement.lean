import MiniPL.Grammar.Expression

/-!
# Statements

    statement ::= "var" name ":" type [ ":=" expression ]
                | name ":=" expression
                | "print" expression
                | "read" name
                | "assert" "(" expression ")"
                | "for" name "in" expression ".." expression "do" block "end" "for"
                | "if" expression "do" block [ "else" block ] "end" "if"

The last two hold blocks. Here only what stands before a block is read
(`Opener`); the block itself is a matter of the whole program
(`MiniPL.Grammar.Program`), and when it ends, its opener makes a statement of it
(`Opener.close`).
-/

namespace MiniPL

/-- What opens a block. That of an alternative holds the block before it too. -/
inductive Opener
  | forLoop (pos : Pos) (name : String) (first last : Expr Unit)
  | ifThen (pos : Pos) (cond : Expr Unit)
  | ifElse (pos : Pos) (cond : Expr Unit) (body : Block Unit)

namespace Opener

/-- The statement with the given block. -/
def close (block : Block Unit) : Opener → Stmt Unit
  | forLoop p x a b => .forLoop p x a b block
  | ifThen p c => .ifThen p c block
  | ifElse p c body => .ifElse p c body block

/-- The keyword that stands after the end of the block. -/
def keyword : Opener → Keyword
  | forLoop .. => .forK
  | ifThen .. => .ifK
  | ifElse .. => .ifK

end Opener

/-- What a statement starts with. -/
inductive Start
  /-- All of it. -/
  | whole (s : Stmt Unit)
  /-- What opens its block. -/
  | opening (o : Opener)

namespace Reading

/-- Reads a declaration. -/
def declaration : Reading Start := do
  let _ ← expect (.keyword .varK)
  let (p, x) ← expectName
  let _ ← expect (.symbol .colon)
  let ty ← expectType
  match ← peek with
  | .token ⟨.symbol .assign, _⟩ =>
    advance
    let e ← expr
    return .whole (.declare p x ty (some e))
  | _ => return .whole (.declare p x ty none)

/-- Reads an assignment. -/
def assignment : Reading Start := do
  let (p, x) ← expectName
  let _ ← expect (.symbol .assign)
  let e ← expr
  return .whole (.assign p x e)

/-- Reads an output. -/
def output : Reading Start := do
  let p ← expect (.keyword .printK)
  let e ← expr
  return .whole (.print p e)

/-- Reads an input. -/
def input : Reading Start := do
  let _ ← expect (.keyword .readK)
  let (p, x) ← expectName
  return .whole (.read p x)

/-- Reads an assertion. -/
def assertion : Reading Start := do
  let p ← expect (.keyword .assertK)
  let _ ← expect (.symbol .openParen)
  let c ← expr
  let _ ← expect (.symbol .closeParen)
  return .whole (.assert p c)

/-- Reads a loop up to its block. -/
def loopHead : Reading Start := do
  let _ ← expect (.keyword .forK)
  let (p, x) ← expectName
  let _ ← expect (.keyword .inK)
  let a ← expr
  let _ ← expect (.symbol .range)
  let b ← expr
  let _ ← expect (.keyword .doK)
  return .opening (.forLoop p x a b)

/-- Reads a branch up to its block. -/
def branchHead : Reading Start := do
  let p ← expect (.keyword .ifK)
  let c ← expr
  let _ ← expect (.keyword .doK)
  return .opening (.ifThen p c)

/-- Reads what a statement starts with. The first token decides the form. -/
def start : Reading Start := do
  match ← peek with
  | .token ⟨.keyword .varK, _⟩ => declaration
  | .token ⟨.name _, _⟩ => assignment
  | .token ⟨.keyword .forK, _⟩ => loopHead
  | .token ⟨.keyword .ifK, _⟩ => branchHead
  | .token ⟨.keyword .printK, _⟩ => output
  | .token ⟨.keyword .readK, _⟩ => input
  | .token ⟨.keyword .assertK, _⟩ => assertion
  | item => refuse (.illegalStart item.kind) item.pos

/-- Reads the end of a block, with the keyword that belongs to its opener. -/
def closing (o : Opener) : Reading Unit := do
  let _ ← expect (.keyword .endK)
  let _ ← expect (.keyword o.keyword)

/-! ## Progress -/

theorem consumes_declaration : declaration.Consumes :=
  (consumes_expect (by decide)).bind_left fun _ => forward_expectName.bind fun _ =>
    (forward_expect _).bind fun _ => forward_expectType.bind fun _ =>
      forward_peek.bind fun item => by
        split
        · exact forward_advance.bind fun _ => forward_expr.bind fun _ => forward_pure _
        · exact forward_pure _

theorem consumes_assignment : assignment.Consumes :=
  consumes_expectName.bind_left fun _ => (forward_expect _).bind fun _ =>
    forward_expr.bind fun _ => forward_pure _

theorem consumes_output : output.Consumes :=
  (consumes_expect (by decide)).bind_left fun _ => forward_expr.bind fun _ => forward_pure _

theorem consumes_input : input.Consumes :=
  (consumes_expect (by decide)).bind_left fun _ =>
    forward_expectName.bind fun _ => forward_pure _

theorem consumes_assertion : assertion.Consumes :=
  (consumes_expect (by decide)).bind_left fun _ => (forward_expect _).bind fun _ =>
    forward_expr.bind fun _ => (forward_expect _).bind fun _ => forward_pure _

theorem consumes_loopHead : loopHead.Consumes :=
  (consumes_expect (by decide)).bind_left fun _ => forward_expectName.bind fun _ =>
    (forward_expect _).bind fun _ => forward_expr.bind fun _ =>
      (forward_expect _).bind fun _ => forward_expr.bind fun _ =>
        (forward_expect _).bind fun _ => forward_pure _

theorem consumes_branchHead : branchHead.Consumes :=
  (consumes_expect (by decide)).bind_left fun _ => forward_expr.bind fun _ =>
    (forward_expect _).bind fun _ => forward_pure _

/-- Every statement starts with a token. -/
theorem consumes_start : start.Consumes :=
  .bind_right forward_peek fun item => by
    split
    · exact consumes_declaration
    · exact consumes_assignment
    · exact consumes_loopHead
    · exact consumes_branchHead
    · exact consumes_output
    · exact consumes_input
    · exact consumes_assertion
    · exact consumes_refuse _ _

theorem consumes_closing (o : Opener) : (closing o).Consumes :=
  (consumes_expect (by simp)).bind_left fun _ =>
    (forward_expect _).bind fun _ => forward_pure _

end Reading

end MiniPL
