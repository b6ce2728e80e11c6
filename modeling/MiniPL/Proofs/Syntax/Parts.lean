import MiniPL.Syntax.Numbering

/-!
# The parts of a program

* `Block.exprs`: the expressions in a program, at any depth, in the order in which they
  end;
* `Block.inputs`: the names of the variables that take input;
* `Block.names`: the names of all variables.

With an expression, a program has all the expressions in it (`Block.hereditary_exprs`). The
numbers of a program are those from 1 on, without a gap, in that order
(`Block.labels_number`). So an expression is known by its number.
-/

namespace MiniPL

variable {α : Type}

mutual

/-- The expressions in an operand, in the order in which they end. -/
def Operand.exprs : Operand α → List (Expr α)
  | .literal .. => []
  | .var .. => []
  | .group _ e => e.exprs

/-- The expressions in an expression, itself included. -/
def Expr.exprs : Expr α → List (Expr α)
  | .single a o => o.exprs ++ [.single a o]
  | .negation a p o => o.exprs ++ [.negation a p o]
  | .binary a l op p r => l.exprs ++ r.exprs ++ [.binary a l op p r]

end

mutual

/-- The expressions in a statement, in the order in which they end. -/
def Stmt.exprs : Stmt α → List (Expr α)
  | .declare _ _ _ none => []
  | .declare _ _ _ (some e) => e.exprs
  | .assign _ _ e => e.exprs
  | .forLoop _ _ a b body => a.exprs ++ b.exprs ++ Block.exprs body
  | .ifThen _ c body => c.exprs ++ Block.exprs body
  | .ifElse _ c body otherwise => c.exprs ++ Block.exprs body ++ Block.exprs otherwise
  | .print _ e => e.exprs
  | .read .. => []
  | .assert _ c => c.exprs

/-- The expressions in a block, in the order in which they end. -/
def Block.exprs : Block α → List (Expr α)
  | [] => []
  | s :: rest => s.exprs ++ Block.exprs rest

end

mutual

/-- The names of the variables that take input in a statement. -/
def Stmt.inputs : Stmt α → List String
  | .declare .. => []
  | .assign .. => []
  | .forLoop _ _ _ _ body => Block.inputs body
  | .ifThen _ _ body => Block.inputs body
  | .ifElse _ _ body otherwise => Block.inputs body ++ Block.inputs otherwise
  | .print .. => []
  | .read _ x => [x]
  | .assert .. => []

/-- The names of the variables that take input in a block. -/
def Block.inputs : Block α → List String
  | [] => []
  | s :: rest => s.inputs ++ Block.inputs rest

end

theorem Block.mem_inputs_iff {b : Block α} {x : String} :
    x ∈ Block.inputs b ↔ ∃ s ∈ b, x ∈ s.inputs := by
  induction b with
  | nil => simp [Block.inputs]
  | cons s rest ih => simp [Block.inputs, ih]

mutual

/-- The names in an operand. -/
def Operand.names : Operand α → List String
  | .literal .. => []
  | .var _ x => [x]
  | .group _ e => e.names

/-- The names in an expression. -/
def Expr.names : Expr α → List String
  | .single _ o => o.names
  | .negation _ _ o => o.names
  | .binary _ l _ _ r => l.names ++ r.names

end

mutual

/-- The names in a statement. -/
def Stmt.names : Stmt α → List String
  | .declare _ x _ none => [x]
  | .declare _ x _ (some e) => x :: e.names
  | .assign _ x e => x :: e.names
  | .forLoop _ x a b body => x :: (a.names ++ b.names ++ Block.names body)
  | .ifThen _ c body => c.names ++ Block.names body
  | .ifElse _ c body otherwise => c.names ++ Block.names body ++ Block.names otherwise
  | .print _ e => e.names
  | .read _ x => [x]
  | .assert _ c => c.names

/-- The names in a block. -/
def Block.names : Block α → List String
  | [] => []
  | s :: rest => s.names ++ Block.names rest

end

/-! ## Parts of parts -/

/-- Whether a list has, with an expression, all the expressions in it. -/
def Expr.Hereditary (l : List (Expr α)) : Prop := ∀ e ∈ l, e.exprs ⊆ l

section Hereditary

variable {l l' : List (Expr α)} {e : Expr α}

theorem Expr.hereditary_nil : Hereditary ([] : List (Expr α)) := nofun

theorem Expr.Hereditary.append (h : Hereditary l) (h' : Hereditary l') :
    Hereditary (l ++ l') := by
  intro e he
  rcases List.mem_append.1 he with he | he
  · exact List.subset_append_of_subset_left l' (h e he)
  · exact List.subset_append_of_subset_right l (h' e he)

/-- An expression may stand after all that is in it. -/
theorem Expr.Hereditary.concat (h : Hereditary l) (he : e.exprs = l ++ [e]) :
    Hereditary (l ++ [e]) := by
  intro e' he'
  rcases List.mem_append.1 he' with he' | he'
  · exact List.subset_append_of_subset_left [e] (h e' he')
  · obtain rfl := List.mem_singleton.1 he'
    rw [he]
    exact List.Subset.refl _

end Hereditary

mutual

theorem Operand.hereditary_exprs : (o : Operand α) → Expr.Hereditary o.exprs
  | .literal .. => Expr.hereditary_nil
  | .var .. => Expr.hereditary_nil
  | .group _ e => e.hereditary_exprs

theorem Expr.hereditary_exprs : (e : Expr α) → Expr.Hereditary e.exprs
  | .single _ o => o.hereditary_exprs.concat rfl
  | .negation _ _ o => o.hereditary_exprs.concat rfl
  | .binary _ l _ _ r => (l.hereditary_exprs.append r.hereditary_exprs).concat rfl

end

mutual

theorem Stmt.hereditary_exprs : (s : Stmt α) → Expr.Hereditary s.exprs
  | .declare _ _ _ none => Expr.hereditary_nil
  | .declare _ _ _ (some e) => e.hereditary_exprs
  | .assign _ _ e => e.hereditary_exprs
  | .forLoop _ _ a b body =>
    (a.hereditary_exprs.append b.hereditary_exprs).append (Block.hereditary_exprs body)
  | .ifThen _ c body => c.hereditary_exprs.append (Block.hereditary_exprs body)
  | .ifElse _ c body otherwise =>
    (c.hereditary_exprs.append (Block.hereditary_exprs body)).append
      (Block.hereditary_exprs otherwise)
  | .print _ e => e.hereditary_exprs
  | .read .. => Expr.hereditary_nil
  | .assert _ c => c.hereditary_exprs

/-- A block has, with an expression, all the expressions in it. -/
theorem Block.hereditary_exprs : (b : Block α) → Expr.Hereditary (Block.exprs b)
  | [] => Expr.hereditary_nil
  | s :: rest => s.hereditary_exprs.append (Block.hereditary_exprs rest)

end

/-! ## Labels -/

mutual

theorem Operand.labels_eq : (o : Operand α) → o.labels = o.exprs.map Expr.label
  | .literal .. => rfl
  | .var .. => rfl
  | .group _ e => e.labels_eq

theorem Expr.labels_eq : (e : Expr α) → e.labels = e.exprs.map Expr.label
  | .single _ o => by simp [Expr.labels, Expr.exprs, o.labels_eq, Expr.label]
  | .negation _ _ o => by simp [Expr.labels, Expr.exprs, o.labels_eq, Expr.label]
  | .binary _ l _ _ r => by simp [Expr.labels, Expr.exprs, l.labels_eq, r.labels_eq, Expr.label]

end

mutual

theorem Stmt.labels_eq : (s : Stmt α) → s.labels = s.exprs.map Expr.label
  | .declare _ _ _ none => rfl
  | .declare _ _ _ (some e) => e.labels_eq
  | .assign _ _ e => e.labels_eq
  | .forLoop _ _ a b body => by
    simp [Stmt.labels, Stmt.exprs, a.labels_eq, b.labels_eq, Block.labels_eq body]
  | .ifThen _ c body => by simp [Stmt.labels, Stmt.exprs, c.labels_eq, Block.labels_eq body]
  | .ifElse _ c body otherwise => by
    simp [Stmt.labels, Stmt.exprs, c.labels_eq, Block.labels_eq body, Block.labels_eq otherwise]
  | .print _ e => e.labels_eq
  | .read .. => rfl
  | .assert _ c => c.labels_eq

/-- The labels of a block are those of the expressions in it. -/
theorem Block.labels_eq : (b : Block α) → Block.labels b = (Block.exprs b).map Expr.label
  | [] => rfl
  | s :: rest => by simp [Block.labels, Block.exprs, s.labels_eq, Block.labels_eq rest]

end

/-! ## Numbers -/

mutual

theorem Operand.labels_numberFrom (n : Nat) :
    (o : Operand α) → (o.numberFrom n).labels = List.range' (n + 1) o.size
  | .literal .. => rfl
  | .var .. => rfl
  | .group _ e => e.labels_numberFrom n

theorem Expr.labels_numberFrom (n : Nat) :
    (e : Expr α) → (e.numberFrom n).labels = List.range' (n + 1) e.size
  | .single _ o => by
    rw [Expr.numberFrom, Expr.labels, o.labels_numberFrom, Expr.size, List.range'_1_concat,
      Nat.add_right_comm]
  | .negation _ _ o => by
    rw [Expr.numberFrom, Expr.labels, o.labels_numberFrom, Expr.size, List.range'_1_concat,
      Nat.add_right_comm]
  | .binary _ l _ _ r => by
    -- The right operand is numbered after the left one, and the expression after both.
    rw [Expr.numberFrom, Expr.labels, l.labels_numberFrom, r.labels_numberFrom, Expr.size,
      List.range'_1_concat, Nat.add_right_comm n l.size, List.range'_append_1]
    congr 2
    omega

end

mutual

theorem Stmt.labels_numberFrom (n : Nat) :
    (s : Stmt α) → (s.numberFrom n).labels = List.range' (n + 1) s.size
  | .declare _ _ _ none => rfl
  | .declare _ _ _ (some e) => e.labels_numberFrom n
  | .assign _ _ e => e.labels_numberFrom n
  | .forLoop _ _ a b body => by
    rw [Stmt.numberFrom, Stmt.labels, a.labels_numberFrom, b.labels_numberFrom,
      Block.labels_numberFrom _ body, Stmt.size, Nat.add_right_comm n a.size, List.range'_append_1,
      show n + a.size + b.size + 1 = n + 1 + (a.size + b.size) by omega, List.range'_append_1]
  | .ifThen _ c body => by
    rw [Stmt.numberFrom, Stmt.labels, c.labels_numberFrom, Block.labels_numberFrom _ body,
      Stmt.size, Nat.add_right_comm n c.size, List.range'_append_1]
  | .ifElse _ c body otherwise => by
    rw [Stmt.numberFrom, Stmt.labels, c.labels_numberFrom, Block.labels_numberFrom _ body,
      Block.labels_numberFrom _ otherwise, Stmt.size, Nat.add_right_comm n c.size,
      List.range'_append_1,
      show n + c.size + Block.size body + 1 = n + 1 + (c.size + Block.size body) by omega,
      List.range'_append_1]
  | .print _ e => e.labels_numberFrom n
  | .read .. => rfl
  | .assert _ c => c.labels_numberFrom n

theorem Block.labels_numberFrom (n : Nat) :
    (b : Block α) → Block.labels (Block.numberFrom n b) = List.range' (n + 1) (Block.size b)
  | [] => rfl
  | s :: rest => by
    rw [Block.numberFrom, Block.labels, s.labels_numberFrom, Block.labels_numberFrom _ rest,
      Block.size, Nat.add_right_comm n s.size, List.range'_append_1]

end

/-- The numbers of a program are those from 1 on. -/
theorem Block.labels_number (b : Block α) :
    Block.labels (Block.number b) = List.range' 1 (Block.size b) :=
  Block.labels_numberFrom 0 b

end MiniPL
