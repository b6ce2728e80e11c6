import MiniPL.Syntax

/-!
# Numbering the expressions of a program

The expressions of a program are numbered from 1 in the order in which they end:
an expression after those inside it, the left operand before the right one, an
earlier statement before a later one. Statements and operands have no numbers.

* `Expr.size`: how many expressions there are in an expression, itself included;
* `Expr.numberFrom`: labels with the numbers after a given one;
* `Expr.labels`: the labels, in the order of the numbers.
-/

namespace MiniPL

variable {α : Type}

mutual

/-- How many expressions there are in an operand. -/
def Operand.size : Operand α → Nat
  | .literal .. => 0
  | .var .. => 0
  | .group _ e => e.size

/-- How many expressions there are in an expression, itself included. -/
def Expr.size : Expr α → Nat
  | .single _ o => o.size + 1
  | .negation _ _ o => o.size + 1
  | .binary _ l _ _ r => l.size + r.size + 1

end

mutual

/-- How many expressions there are in a statement. -/
def Stmt.size : Stmt α → Nat
  | .declare _ _ _ none => 0
  | .declare _ _ _ (some e) => e.size
  | .assign _ _ e => e.size
  | .forLoop _ _ a b body => a.size + b.size + Block.size body
  | .ifThen _ c body => c.size + Block.size body
  | .ifElse _ c body otherwise => c.size + Block.size body + Block.size otherwise
  | .print _ e => e.size
  | .read .. => 0
  | .assert _ c => c.size

/-- How many expressions there are in a block. -/
def Block.size : Block α → Nat
  | [] => 0
  | s :: rest => s.size + Block.size rest

end

mutual

/-- The operand with its expressions numbered from `n + 1` on. -/
def Operand.numberFrom (n : Nat) : Operand α → Operand Nat
  | .literal p l => .literal p l
  | .var p x => .var p x
  | .group p e => .group p (e.numberFrom n)

/-- The expression with its expressions numbered from `n + 1` on. -/
def Expr.numberFrom (n : Nat) : Expr α → Expr Nat
  | .single _ o => .single (n + o.size + 1) (o.numberFrom n)
  | .negation _ p o => .negation (n + o.size + 1) p (o.numberFrom n)
  | .binary _ l op p r =>
    .binary (n + l.size + r.size + 1) (l.numberFrom n) op p (r.numberFrom (n + l.size))

end

mutual

/-- The statement with its expressions numbered from `n + 1` on. -/
def Stmt.numberFrom (n : Nat) : Stmt α → Stmt Nat
  | .declare p x ty none => .declare p x ty none
  | .declare p x ty (some e) => .declare p x ty (some (e.numberFrom n))
  | .assign p x e => .assign p x (e.numberFrom n)
  | .forLoop p x a b body =>
    .forLoop p x (a.numberFrom n) (b.numberFrom (n + a.size))
      (Block.numberFrom (n + a.size + b.size) body)
  | .ifThen p c body => .ifThen p (c.numberFrom n) (Block.numberFrom (n + c.size) body)
  | .ifElse p c body otherwise =>
    .ifElse p (c.numberFrom n) (Block.numberFrom (n + c.size) body)
      (Block.numberFrom (n + c.size + Block.size body) otherwise)
  | .print p e => .print p (e.numberFrom n)
  | .read p x => .read p x
  | .assert p c => .assert p (c.numberFrom n)

/-- The block with its expressions numbered from `n + 1` on. -/
def Block.numberFrom (n : Nat) : Block α → Block Nat
  | [] => []
  | s :: rest => s.numberFrom n :: Block.numberFrom (n + s.size) rest

end

/-- The program with its expressions numbered. -/
def Block.number (program : Block α) : Block Nat := Block.numberFrom 0 program

/-- The expression with the expressions in it numbered. -/
def Expr.number (e : Expr α) : Expr Nat := e.numberFrom 0

mutual

/-- The labels in an operand, in the order in which the expressions end. -/
def Operand.labels : Operand α → List α
  | .literal .. => []
  | .var .. => []
  | .group _ e => e.labels

/-- The labels in an expression, in the order in which the expressions end. -/
def Expr.labels : Expr α → List α
  | .single a o => o.labels ++ [a]
  | .negation a _ o => o.labels ++ [a]
  | .binary a l _ _ r => l.labels ++ r.labels ++ [a]

end

mutual

/-- The labels in a statement, in the order in which the expressions end. -/
def Stmt.labels : Stmt α → List α
  | .declare _ _ _ none => []
  | .declare _ _ _ (some e) => e.labels
  | .assign _ _ e => e.labels
  | .forLoop _ _ a b body => a.labels ++ b.labels ++ Block.labels body
  | .ifThen _ c body => c.labels ++ Block.labels body
  | .ifElse _ c body otherwise => c.labels ++ Block.labels body ++ Block.labels otherwise
  | .print _ e => e.labels
  | .read .. => []
  | .assert _ c => c.labels

/-- The labels in a block, in the order in which the expressions end. -/
def Block.labels : Block α → List α
  | [] => []
  | s :: rest => s.labels ++ Block.labels rest

end

end MiniPL
