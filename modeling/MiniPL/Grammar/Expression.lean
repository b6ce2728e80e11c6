import MiniPL.Grammar.Reader

/-!
# Expressions

    expression ::= "!" operand | operand [ operator operand ]
    operand    ::= integer | text | name | "(" expression ")"

There is one operator at most: an operator after a negated operand is refused right
there, one after two operands is left to whatever reads what comes after the
expression.

Parentheses nest up to a limit (`nestingLimit`). The opening parenthesis beyond it
is still read, and the fault is found at what follows.
-/

namespace MiniPL

namespace Reading

/-- The operator that the current item is. -/
def peekOperator : Reading (Option (BinOp × Pos)) := do
  match ← peek with
  | .token t => return t.lexeme.binOp?.map (·, t.pos)
  | .eof _ => return none

/-- Reads an operand, with `inner` for what stands in parentheses. -/
def operand (inner : Reading (Expr Unit)) : Reading (Operand Unit) := do
  match ← peek with
  | .token ⟨.int digits, p⟩ =>
    advance
    return .literal p (.int digits)
  | .token ⟨.text content, p⟩ =>
    advance
    return .literal p (.text content)
  | .token ⟨.name x, p⟩ =>
    advance
    return .var p x
  | .token ⟨.symbol .openParen, p⟩ =>
    advance
    let e ← inner
    let _ ← expect (.symbol .closeParen)
    return .group p e
  | item => refuse (.unexpected item.kind []) item.pos

/-- Reads an operand after a negation sign at `p`. -/
def negated (inner : Reading (Expr Unit)) (p : Pos) : Reading (Expr Unit) := do
  let o ← operand inner
  let item ← peek
  match ← peekOperator with
  | some _ => refuse (.unexpected item.kind []) item.pos
  | none => return .negation () p o

/-- Reads an operand, and an operator with a second one if there is an operator. -/
def joined (inner : Reading (Expr Unit)) : Reading (Expr Unit) := do
  let left ← operand inner
  match ← peekOperator with
  | some (op, p) =>
    advance
    let right ← operand inner
    return .binary () left op p right
  | none => return .single () left

/-- Reads an expression in which less than `depth` parentheses are open at a time. -/
def exprWithin : (depth : Nat) → Reading (Expr Unit)
  | 0 => do
    let item ← peek
    refuse .nestedTooDeeply item.pos
  | depth + 1 => do
    match ← peek with
    | .token ⟨.symbol .bang, p⟩ =>
      advance
      negated (exprWithin depth) p
    | _ => joined (exprWithin depth)

/-- How many parentheses may be open at a time. -/
def nestingLimit : Nat := 400

/-- Reads an expression. -/
def expr : Reading (Expr Unit) := exprWithin (nestingLimit + 1)

/-! ## Progress -/

theorem forward_peekOperator : peekOperator.Forward :=
  forward_peek.bind fun item => by
    split <;> exact forward_pure _

theorem forward_operand {inner : Reading (Expr Unit)} (h : inner.Forward) :
    (operand inner).Forward :=
  forward_peek.bind fun item => by
    split
    · exact forward_advance.bind fun _ => forward_pure _
    · exact forward_advance.bind fun _ => forward_pure _
    · exact forward_advance.bind fun _ => forward_pure _
    · exact forward_advance.bind fun _ => h.bind fun _ =>
        (forward_expect _).bind fun _ => forward_pure _
    · exact forward_refuse _ _

theorem forward_negated {inner : Reading (Expr Unit)} (h : inner.Forward) (p : Pos) :
    (negated inner p).Forward :=
  (forward_operand h).bind fun _ => forward_peek.bind fun _ => forward_peekOperator.bind fun o => by
    split
    · exact forward_refuse _ _
    · exact forward_pure _

theorem forward_joined {inner : Reading (Expr Unit)} (h : inner.Forward) :
    (joined inner).Forward :=
  (forward_operand h).bind fun _ => forward_peekOperator.bind fun o => by
    split
    · exact forward_advance.bind fun _ => (forward_operand h).bind fun _ => forward_pure _
    · exact forward_pure _

theorem forward_exprWithin (depth : Nat) : (exprWithin depth).Forward := by
  induction depth with
  | zero => exact forward_peek.bind fun _ => forward_refuse _ _
  | succ depth ih =>
    refine forward_peek.bind fun item => ?_
    split
    · exact forward_advance.bind fun _ => forward_negated ih _
    · exact forward_joined ih

theorem forward_expr : expr.Forward := forward_exprWithin _

end Reading

end MiniPL
