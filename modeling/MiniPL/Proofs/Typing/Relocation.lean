import MiniPL.Proofs.Syntax.Relocation
import MiniPL.Typing

/-!
# Positions and labels do not matter for the check

At other positions, and without labels, expressions have the same types, a program declares the
same variables (`Block.extend_relocate`), the same faults are found at the other positions
(`Block.faults_relocate`), and the same types are recorded (`Block.types_relocate`).
-/

namespace MiniPL

variable {α : Type} (g : Pos → Pos) (σ : Store VarType)

theorem VarType.expect_relocate (expected? got? : Option VarType) (p : Pos) :
    expect expected? got? (g p) = (expect expected? got? p).map (·.relocate g) := by
  unfold expect
  split
  · split <;> rfl
  · rfl

theorem BinOp.faults_relocate (op : BinOp) (left? right? : Option VarType) (p q : Pos) :
    op.faults (g p) left? right? (g q) = (op.faults p left? right? q).map (·.relocate g) := by
  unfold faults
  split
  · split
    · rfl
    · split <;> rfl
  · rfl

theorem Store.require_relocate (x : String) (p : Pos) :
    σ.require x (g p) = (σ.require x p).map (·.relocate g) := by
  unfold require
  split <;> rfl

mutual

theorem Operand.ty?_relocate : (o : Operand α) → (o.relocate g).ty? σ = o.ty? σ
  | .literal .. => rfl
  | .var .. => rfl
  | .group _ e => e.ty?_relocate

@[simp] theorem Expr.ty?_relocate : (e : Expr α) → (e.relocate g).ty? σ = e.ty? σ
  | .single _ o => o.ty?_relocate
  | .negation .. => rfl
  | .binary _ l op _ r => by
    rw [Expr.relocate, Expr.ty?, l.ty?_relocate, r.ty?_relocate, Expr.ty?]

end

mutual

theorem Operand.faults_relocate :
    (o : Operand α) → (o.relocate g).faults σ = (o.faults σ).map (·.relocate g)
  | .literal .. => rfl
  | .var p x => σ.require_relocate g x p
  | .group _ e => e.faults_relocate

theorem Expr.faults_relocate :
    (e : Expr α) → (e.relocate g).faults σ = (e.faults σ).map (·.relocate g)
  | .single _ o => o.faults_relocate
  | .negation _ _ o => by
    rw [Expr.relocate, Expr.faults, o.faults_relocate, o.ty?_relocate, o.pos_relocate,
      VarType.expect_relocate, Expr.faults, List.map_append]
  | .binary _ l op _ r => by
    rw [Expr.relocate, Expr.faults, l.faults_relocate, r.faults_relocate, l.ty?_relocate,
      r.ty?_relocate, r.pos_relocate, op.faults_relocate, Expr.faults, List.map_append,
      List.map_append]

end

mutual

theorem Stmt.extend_relocate (σ : Store VarType) :
    (s : Stmt α) → (s.relocate g).extend σ = s.extend σ
  | .declare _ _ _ none => rfl
  | .declare _ _ _ (some _) => rfl
  | .assign .. => rfl
  | .forLoop _ _ _ _ body => Block.extend_relocate σ body
  | .ifThen _ _ body => Block.extend_relocate σ body
  | .ifElse _ _ body otherwise => by
    rw [Stmt.relocate, Stmt.extend, Block.extend_relocate σ body, Block.extend_relocate _ otherwise,
      Stmt.extend]
  | .print .. => rfl
  | .read .. => rfl
  | .assert .. => rfl

/-- The same variables are declared. -/
theorem Block.extend_relocate (σ : Store VarType) :
    (b : Block α) → Block.extend σ (Block.relocate g b) = Block.extend σ b
  | [] => rfl
  | s :: rest => by
    rw [Block.relocate, Block.extend, s.extend_relocate σ, Block.extend_relocate _ rest,
      Block.extend]

end

mutual

theorem Stmt.faults_relocate (σ : Store VarType) :
    (s : Stmt α) → (s.relocate g).faults σ = (s.faults σ).map (·.relocate g)
  | .declare _ x _ none => by
    rw [Stmt.relocate, Stmt.faults, Stmt.faults]
    split <;> rfl
  | .declare _ x _ (some e) => by
    rw [Stmt.relocate, Stmt.faults, Stmt.faults]
    rw [e.faults_relocate, e.ty?_relocate, e.pos_relocate, VarType.expect_relocate,
      List.map_append, List.map_append]
    split <;> rfl
  | .assign p x e => by
    simp only [Stmt.relocate, Stmt.faults, σ.require_relocate g, e.faults_relocate,
      e.ty?_relocate, e.pos_relocate, VarType.expect_relocate, List.map_append]
  | .forLoop p x a b body => by
    simp only [Stmt.relocate, Stmt.faults, σ.require_relocate g, a.faults_relocate,
      a.ty?_relocate, a.pos_relocate, b.faults_relocate, b.ty?_relocate, b.pos_relocate,
      VarType.expect_relocate, Block.faults_relocate σ body, List.map_append]
  | .ifThen _ c body => by
    simp only [Stmt.relocate, Stmt.faults, c.faults_relocate, c.ty?_relocate, c.pos_relocate,
      VarType.expect_relocate, Block.faults_relocate σ body, List.map_append]
  | .ifElse _ c body otherwise => by
    simp only [Stmt.relocate, Stmt.faults, c.faults_relocate, c.ty?_relocate, c.pos_relocate,
      VarType.expect_relocate, Block.faults_relocate σ body, Block.extend_relocate,
      Block.faults_relocate _ otherwise, List.map_append]
  | .print _ e => e.faults_relocate g σ
  | .read p x => σ.require_relocate g x p
  | .assert _ c => by
    simp only [Stmt.relocate, Stmt.faults, c.faults_relocate, c.ty?_relocate, c.pos_relocate,
      VarType.expect_relocate, List.map_append]

/-- The same faults are found, at the other positions. -/
theorem Block.faults_relocate (σ : Store VarType) : (b : Block α) →
    Block.faults σ (Block.relocate g b) = (Block.faults σ b).map (·.relocate g)
  | [] => rfl
  | s :: rest => by
    rw [Block.relocate, Block.faults, s.faults_relocate σ, s.extend_relocate,
      Block.faults_relocate _ rest, Block.faults, List.map_append]

end

mutual

theorem Operand.types_relocate :
    (o : Operand α) → (o.relocate g).types σ = (o.types σ).map fun entry => ((), entry.2)
  | .literal .. => rfl
  | .var .. => rfl
  | .group _ e => e.types_relocate

theorem Expr.types_relocate :
    (e : Expr α) → (e.relocate g).types σ = (e.types σ).map fun entry => ((), entry.2)
  | .single _ o => by
    simp only [Expr.relocate, Expr.types, o.types_relocate, o.ty?_relocate, List.map_append,
      List.map_cons, List.map_nil]
  | .negation _ _ o => by
    simp only [Expr.relocate, Expr.types, o.types_relocate, List.map_append, List.map_cons,
      List.map_nil]
  | .binary _ l op _ r => by
    simp only [Expr.relocate, Expr.types, Expr.ty?, l.types_relocate, r.types_relocate,
      l.ty?_relocate, r.ty?_relocate, List.map_append, List.map_cons, List.map_nil]

end

mutual

theorem Stmt.types_relocate (σ : Store VarType) :
    (s : Stmt α) → (s.relocate g).types σ = (s.types σ).map fun entry => ((), entry.2)
  | .declare _ _ _ none => rfl
  | .declare _ _ _ (some e) => e.types_relocate g _
  | .assign _ _ e => e.types_relocate g σ
  | .forLoop _ _ a b body => by
    simp only [Stmt.relocate, Stmt.types, a.types_relocate, b.types_relocate,
      Block.types_relocate σ body, List.map_append]
  | .ifThen _ c body => by
    simp only [Stmt.relocate, Stmt.types, c.types_relocate, Block.types_relocate σ body,
      List.map_append]
  | .ifElse _ c body otherwise => by
    simp only [Stmt.relocate, Stmt.types, c.types_relocate, Block.types_relocate σ body,
      Block.extend_relocate, Block.types_relocate _ otherwise, List.map_append]
  | .print _ e => e.types_relocate g σ
  | .read .. => rfl
  | .assert _ c => c.types_relocate g σ

/-- The same types are recorded, in the same order. -/
theorem Block.types_relocate (σ : Store VarType) : (b : Block α) →
    Block.types σ (Block.relocate g b) = (Block.types σ b).map fun entry => ((), entry.2)
  | [] => rfl
  | s :: rest => by
    rw [Block.relocate, Block.types, s.types_relocate, s.extend_relocate,
      Block.types_relocate _ rest, Block.types, List.map_append]

end

end MiniPL
