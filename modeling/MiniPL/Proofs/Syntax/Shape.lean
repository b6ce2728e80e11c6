import MiniPL.Syntax.Numbering

/-!
# The shape of a program

What is left of a tree without its positions and labels is its *shape* (`Block.bare`): two
trees are the same up to positions and labels if they have one shape. The number of an
expression is no part of it (`Block.bare_number`).

How many expressions there are in a tree, and how deep groups nest in it (`Block.depth`), is a
matter of its shape.
-/

namespace MiniPL

variable {α : Type}

mutual

/-- The operand without positions and labels. -/
def Operand.bare : Operand α → Operand Unit
  | .literal _ l => .literal .start l
  | .var _ x => .var .start x
  | .group _ e => .group .start e.bare

/-- The expression without positions and labels. -/
def Expr.bare : Expr α → Expr Unit
  | .single _ o => .single () o.bare
  | .negation _ _ o => .negation () .start o.bare
  | .binary _ l op _ r => .binary () l.bare op .start r.bare

end

mutual

/-- The statement without positions and labels. -/
def Stmt.bare : Stmt α → Stmt Unit
  | .declare _ x ty none => .declare .start x ty none
  | .declare _ x ty (some e) => .declare .start x ty (some e.bare)
  | .assign _ x e => .assign .start x e.bare
  | .forLoop _ x a b body => .forLoop .start x a.bare b.bare (Block.bare body)
  | .ifThen _ c body => .ifThen .start c.bare (Block.bare body)
  | .ifElse _ c body otherwise => .ifElse .start c.bare (Block.bare body) (Block.bare otherwise)
  | .print _ e => .print .start e.bare
  | .read _ x => .read .start x
  | .assert _ c => .assert .start c.bare

/-- The block without positions and labels. -/
def Block.bare : Block α → Block Unit
  | [] => []
  | s :: rest => s.bare :: Block.bare rest

end

/-! ## Numbers -/

mutual

theorem Operand.bare_numberFrom (n : Nat) : (o : Operand α) → (o.numberFrom n).bare = o.bare
  | .literal .. => rfl
  | .var .. => rfl
  | .group _ e => by rw [Operand.numberFrom, Operand.bare, e.bare_numberFrom, Operand.bare]

theorem Expr.bare_numberFrom (n : Nat) : (e : Expr α) → (e.numberFrom n).bare = e.bare
  | .single _ o => by rw [Expr.numberFrom, Expr.bare, o.bare_numberFrom, Expr.bare]
  | .negation _ _ o => by rw [Expr.numberFrom, Expr.bare, o.bare_numberFrom, Expr.bare]
  | .binary _ l _ _ r => by
    rw [Expr.numberFrom, Expr.bare, l.bare_numberFrom, r.bare_numberFrom, Expr.bare]

end

mutual

theorem Stmt.bare_numberFrom (n : Nat) : (s : Stmt α) → (s.numberFrom n).bare = s.bare
  | .declare _ _ _ none => rfl
  | .declare _ _ _ (some e) => by rw [Stmt.numberFrom, Stmt.bare, e.bare_numberFrom, Stmt.bare]
  | .assign _ _ e => by rw [Stmt.numberFrom, Stmt.bare, e.bare_numberFrom, Stmt.bare]
  | .forLoop _ _ a b body => by
    rw [Stmt.numberFrom, Stmt.bare, a.bare_numberFrom, b.bare_numberFrom,
      Block.bare_numberFrom _ body, Stmt.bare]
  | .ifThen _ c body => by
    rw [Stmt.numberFrom, Stmt.bare, c.bare_numberFrom, Block.bare_numberFrom _ body, Stmt.bare]
  | .ifElse _ c body otherwise => by
    rw [Stmt.numberFrom, Stmt.bare, c.bare_numberFrom, Block.bare_numberFrom _ body,
      Block.bare_numberFrom _ otherwise, Stmt.bare]
  | .print _ e => by rw [Stmt.numberFrom, Stmt.bare, e.bare_numberFrom, Stmt.bare]
  | .read .. => rfl
  | .assert _ c => by rw [Stmt.numberFrom, Stmt.bare, c.bare_numberFrom, Stmt.bare]

theorem Block.bare_numberFrom (n : Nat) :
    (b : Block α) → Block.bare (Block.numberFrom n b) = Block.bare b
  | [] => rfl
  | s :: rest => by
    rw [Block.numberFrom, Block.bare, s.bare_numberFrom, Block.bare_numberFrom _ rest, Block.bare]

end

/-- Numbering changes no shape. -/
theorem Block.bare_number (b : Block α) : Block.bare (Block.number b) = Block.bare b :=
  Block.bare_numberFrom 0 b

/-! ## Size -/

mutual

theorem Operand.size_bare : (o : Operand α) → o.bare.size = o.size
  | .literal .. => rfl
  | .var .. => rfl
  | .group _ e => by rw [Operand.bare, Operand.size, e.size_bare, Operand.size]

theorem Expr.size_bare : (e : Expr α) → e.bare.size = e.size
  | .single _ o => by rw [Expr.bare, Expr.size, o.size_bare, Expr.size]
  | .negation _ _ o => by rw [Expr.bare, Expr.size, o.size_bare, Expr.size]
  | .binary _ l _ _ r => by rw [Expr.bare, Expr.size, l.size_bare, r.size_bare, Expr.size]

end

mutual

theorem Stmt.size_bare : (s : Stmt α) → s.bare.size = s.size
  | .declare _ _ _ none => rfl
  | .declare _ _ _ (some e) => by rw [Stmt.bare, Stmt.size, e.size_bare, Stmt.size]
  | .assign _ _ e => by rw [Stmt.bare, Stmt.size, e.size_bare, Stmt.size]
  | .forLoop _ _ a b body => by
    rw [Stmt.bare, Stmt.size, a.size_bare, b.size_bare, Block.size_bare body, Stmt.size]
  | .ifThen _ c body => by rw [Stmt.bare, Stmt.size, c.size_bare, Block.size_bare body, Stmt.size]
  | .ifElse _ c body otherwise => by
    rw [Stmt.bare, Stmt.size, c.size_bare, Block.size_bare body, Block.size_bare otherwise,
      Stmt.size]
  | .print _ e => by rw [Stmt.bare, Stmt.size, e.size_bare, Stmt.size]
  | .read .. => rfl
  | .assert _ c => by rw [Stmt.bare, Stmt.size, c.size_bare, Stmt.size]

/-- How many expressions there are is a matter of the shape. -/
theorem Block.size_bare : (b : Block α) → Block.size (Block.bare b) = Block.size b
  | [] => rfl
  | s :: rest => by rw [Block.bare, Block.size, s.size_bare, Block.size_bare rest, Block.size]

end

/-! ## Depth -/

mutual

/-- How deep groups nest in an operand. -/
def Operand.depth : Operand α → Nat
  | .literal .. => 0
  | .var .. => 0
  | .group _ e => e.depth + 1

/-- How deep groups nest in an expression. -/
def Expr.depth : Expr α → Nat
  | .single _ o => o.depth
  | .negation _ _ o => o.depth
  | .binary _ l _ _ r => max l.depth r.depth

end

mutual

/-- How deep groups nest in a statement. -/
def Stmt.depth : Stmt α → Nat
  | .declare _ _ _ none => 0
  | .declare _ _ _ (some e) => e.depth
  | .assign _ _ e => e.depth
  | .forLoop _ _ a b body => max (max a.depth b.depth) (Block.depth body)
  | .ifThen _ c body => max c.depth (Block.depth body)
  | .ifElse _ c body otherwise => max (max c.depth (Block.depth body)) (Block.depth otherwise)
  | .print _ e => e.depth
  | .read .. => 0
  | .assert _ c => c.depth

/-- How deep groups nest in a block. -/
def Block.depth : Block α → Nat
  | [] => 0
  | s :: rest => max s.depth (Block.depth rest)

end

mutual

theorem Operand.depth_bare : (o : Operand α) → o.bare.depth = o.depth
  | .literal .. => rfl
  | .var .. => rfl
  | .group _ e => by rw [Operand.bare, Operand.depth, e.depth_bare, Operand.depth]

theorem Expr.depth_bare : (e : Expr α) → e.bare.depth = e.depth
  | .single _ o => by rw [Expr.bare, Expr.depth, o.depth_bare, Expr.depth]
  | .negation _ _ o => by rw [Expr.bare, Expr.depth, o.depth_bare, Expr.depth]
  | .binary _ l _ _ r => by rw [Expr.bare, Expr.depth, l.depth_bare, r.depth_bare, Expr.depth]

end

mutual

theorem Stmt.depth_bare : (s : Stmt α) → s.bare.depth = s.depth
  | .declare _ _ _ none => rfl
  | .declare _ _ _ (some e) => by rw [Stmt.bare, Stmt.depth, e.depth_bare, Stmt.depth]
  | .assign _ _ e => by rw [Stmt.bare, Stmt.depth, e.depth_bare, Stmt.depth]
  | .forLoop _ _ a b body => by
    rw [Stmt.bare, Stmt.depth, a.depth_bare, b.depth_bare, Block.depth_bare body, Stmt.depth]
  | .ifThen _ c body => by
    rw [Stmt.bare, Stmt.depth, c.depth_bare, Block.depth_bare body, Stmt.depth]
  | .ifElse _ c body otherwise => by
    rw [Stmt.bare, Stmt.depth, c.depth_bare, Block.depth_bare body, Block.depth_bare otherwise,
      Stmt.depth]
  | .print _ e => by rw [Stmt.bare, Stmt.depth, e.depth_bare, Stmt.depth]
  | .read .. => rfl
  | .assert _ c => by rw [Stmt.bare, Stmt.depth, c.depth_bare, Stmt.depth]

/-- The depth is a matter of the shape. -/
theorem Block.depth_bare : (b : Block α) → Block.depth (Block.bare b) = Block.depth b
  | [] => rfl
  | s :: rest => by rw [Block.bare, Block.depth, s.depth_bare, Block.depth_bare rest, Block.depth]

end

end MiniPL
