import MiniPL.Proofs.Grammar.Ends

/-!
# Programs with an expression in focus

A *focus* is a derivation in which one of the expressions or operands is marked, at any depth: there
is one constructor for each place of one, and one for each place of a part that has it inside. An
edit changes what is in focus, and leaves the rest as it is (`Derivation.Block.Focus.edit`). So all
tokens before it and after it stay (`Derivation.Block.Focus.surrounds`).

Every expression of a program can be in focus, and so can every operand in it
(`Derivation.Block.exists_focus`).
-/

namespace MiniPL.Derivation

/-- What may be in focus. -/
inductive Node
  | operand (o : Operand)
  | expr (e : Expr)

mutual

/-- The operands with something in focus. -/
inductive Operand.Focus
  | here (o : Operand)
  | group (openPos : Pos) (inner : Expr.Focus) (closePos : Pos)

/-- The expressions with something in focus. -/
inductive Expr.Focus
  | here (e : Expr)
  | single (o : Operand.Focus)
  | negation (p : Pos) (o : Operand.Focus)
  | left (left : Operand.Focus) (op : BinOp) (opPos : Pos) (right : Operand)
  | right (left : Operand) (op : BinOp) (opPos : Pos) (right : Operand.Focus)

end

mutual

/-- The statements with something in focus. -/
inductive Stmt.Focus
  | declareInit (varPos p : Pos) (x : String) (colonPos tyPos : Pos) (ty : Ty) (assignPos : Pos)
    (init : Expr.Focus)
  | assign (p : Pos) (x : String) (assignPos : Pos) (value : Expr.Focus)
  | first (forPos p : Pos) (x : String) (inPos : Pos) (first : Expr.Focus) (rangePos : Pos)
    (last : Expr) (doPos : Pos) (body : Block) (endPos closePos : Pos)
  | last (forPos p : Pos) (x : String) (inPos : Pos) (first : Expr) (rangePos : Pos)
    (last : Expr.Focus) (doPos : Pos) (body : Block) (endPos closePos : Pos)
  | loopBody (forPos p : Pos) (x : String) (inPos : Pos) (first : Expr) (rangePos : Pos)
    (last : Expr) (doPos : Pos) (body : Block.Focus) (endPos closePos : Pos)
  | thenCond (p : Pos) (cond : Expr.Focus) (doPos : Pos) (body : Block) (endPos closePos : Pos)
  | thenBody (p : Pos) (cond : Expr) (doPos : Pos) (body : Block.Focus) (endPos closePos : Pos)
  | elseCond (p : Pos) (cond : Expr.Focus) (doPos : Pos) (body : Block) (elsePos : Pos)
    (otherwise : Block) (endPos closePos : Pos)
  | elseBody (p : Pos) (cond : Expr) (doPos : Pos) (body : Block.Focus) (elsePos : Pos)
    (otherwise : Block) (endPos closePos : Pos)
  | otherwise (p : Pos) (cond : Expr) (doPos : Pos) (body : Block) (elsePos : Pos)
    (otherwise : Block.Focus) (endPos closePos : Pos)
  | print (p : Pos) (value : Expr.Focus)
  | assert (p openPos : Pos) (cond : Expr.Focus) (closePos : Pos)

/-- The blocks with something in focus. -/
inductive Block.Focus
  | head (s : Stmt.Focus) (semicolonPos : Pos) (rest : Block)
  | tail (s : Stmt) (semicolonPos : Pos) (rest : Block.Focus)

end

/-! ## Edits -/

/-- What becomes of an operand or an expression in focus. -/
structure Edit where
  operand : Operand → Operand
  expr : Expr → Expr

namespace Edit

/-- Leaves everything as it is. -/
def keep : Edit := ⟨id, id⟩

/-- Puts parentheses around what is in focus. The opening one stands where that stood, so that
    nothing in the tree is moved. -/
def parenthesize : Edit where
  operand o := .group o.tree.pos (.single o) .start
  expr e := .single (.group e.tree.pos e .start)

/-- The tokens of what becomes of a node. -/
def tokens (f : Edit) : Node → List Token
  | .operand o => (f.operand o).tokens
  | .expr e => (f.expr e).tokens

end Edit

mutual

/-- The operand after an edit. -/
def Operand.Focus.edit (f : Edit) : Operand.Focus → Operand
  | .here o => f.operand o
  | .group p e q => .group p (e.edit f) q

/-- The expression after an edit. -/
def Expr.Focus.edit (f : Edit) : Expr.Focus → Expr
  | .here e => f.expr e
  | .single o => .single (o.edit f)
  | .negation p o => .negation p (o.edit f)
  | .left l op p r => .binary (l.edit f) op p r
  | .right l op p r => .binary l op p (r.edit f)

end

mutual

/-- The statement after an edit. -/
def Stmt.Focus.edit (f : Edit) : Stmt.Focus → Stmt
  | .declareInit p₁ p x p₂ p₃ ty p₄ e => .declareInit p₁ p x p₂ p₃ ty p₄ (e.edit f)
  | .assign p x p₁ e => .assign p x p₁ (e.edit f)
  | .first p₁ p x p₂ a p₃ b p₄ body p₅ p₆ => .forLoop p₁ p x p₂ (a.edit f) p₃ b p₄ body p₅ p₆
  | .last p₁ p x p₂ a p₃ b p₄ body p₅ p₆ => .forLoop p₁ p x p₂ a p₃ (b.edit f) p₄ body p₅ p₆
  | .loopBody p₁ p x p₂ a p₃ b p₄ body p₅ p₆ => .forLoop p₁ p x p₂ a p₃ b p₄ (body.edit f) p₅ p₆
  | .thenCond p c p₁ body p₂ p₃ => .ifThen p (c.edit f) p₁ body p₂ p₃
  | .thenBody p c p₁ body p₂ p₃ => .ifThen p c p₁ (body.edit f) p₂ p₃
  | .elseCond p c p₁ body p₂ otherwise p₃ p₄ => .ifElse p (c.edit f) p₁ body p₂ otherwise p₃ p₄
  | .elseBody p c p₁ body p₂ otherwise p₃ p₄ => .ifElse p c p₁ (body.edit f) p₂ otherwise p₃ p₄
  | .otherwise p c p₁ body p₂ otherwise p₃ p₄ => .ifElse p c p₁ body p₂ (otherwise.edit f) p₃ p₄
  | .print p e => .print p (e.edit f)
  | .assert p p₁ c p₂ => .assert p p₁ (c.edit f) p₂

/-- The block after an edit. -/
def Block.Focus.edit (f : Edit) : Block.Focus → Block
  | .head s p rest => .cons (s.edit f) p rest
  | .tail s p rest => .cons s p (rest.edit f)

end

/-! ## What is in focus -/

mutual

/-- What is in focus in an operand. -/
def Operand.Focus.node : Operand.Focus → Node
  | .here o => .operand o
  | .group _ e _ => e.node

/-- What is in focus in an expression. -/
def Expr.Focus.node : Expr.Focus → Node
  | .here e => .expr e
  | .single o => o.node
  | .negation _ o => o.node
  | .left l _ _ _ => l.node
  | .right _ _ _ r => r.node

end

mutual

/-- What is in focus in a statement. -/
def Stmt.Focus.node : Stmt.Focus → Node
  | .declareInit _ _ _ _ _ _ _ e => e.node
  | .assign _ _ _ e => e.node
  | .first _ _ _ _ a _ _ _ _ _ _ => a.node
  | .last _ _ _ _ _ _ b _ _ _ _ => b.node
  | .loopBody _ _ _ _ _ _ _ _ body _ _ => body.node
  | .thenCond _ c _ _ _ _ => c.node
  | .thenBody _ _ _ body _ _ => body.node
  | .elseCond _ c _ _ _ _ _ _ => c.node
  | .elseBody _ _ _ body _ _ _ _ => body.node
  | .otherwise _ _ _ _ _ otherwise _ _ => otherwise.node
  | .print _ e => e.node
  | .assert _ _ c _ => c.node

/-- What is in focus in a block. -/
def Block.Focus.node : Block.Focus → Node
  | .head s _ _ => s.node
  | .tail _ _ rest => rest.node

end

/-- Some tokens are those of a node, with others before them and after them that no edit changes. -/
def Surrounds (n : Node) (tokens : Edit → List Token) : Prop :=
  ∃ before after, ∀ f, tokens f = before ++ f.tokens n ++ after

namespace Surrounds

variable {n : Node} {tokens : Edit → List Token}

theorem append_left (h : Surrounds n tokens) (ts : List Token) :
    Surrounds n fun f => ts ++ tokens f := by
  obtain ⟨before, after, h⟩ := h
  exact ⟨ts ++ before, after, fun f => by simp only [h, List.append_assoc]⟩

theorem append_right (h : Surrounds n tokens) (ts : List Token) :
    Surrounds n fun f => tokens f ++ ts := by
  obtain ⟨before, after, h⟩ := h
  exact ⟨before, after ++ ts, fun f => by simp only [h, List.append_assoc]⟩

end Surrounds

mutual

theorem Operand.Focus.surrounds : (F : Operand.Focus) → Surrounds F.node fun f => (F.edit f).tokens
  | .here _ => ⟨[], [], fun _ => (List.append_nil _).symm⟩
  | .group _ e _ => (e.surrounds.append_left _).append_right _

theorem Expr.Focus.surrounds : (F : Expr.Focus) → Surrounds F.node fun f => (F.edit f).tokens
  | .here _ => ⟨[], [], fun _ => (List.append_nil _).symm⟩
  | .single o => o.surrounds
  | .negation _ o => o.surrounds.append_left _
  | .left l _ _ _ => (l.surrounds.append_right _).append_right _
  | .right _ _ _ r => r.surrounds.append_left _

end

mutual

theorem Stmt.Focus.surrounds : (F : Stmt.Focus) → Surrounds F.node fun f => (F.edit f).tokens
  | .declareInit _ _ _ _ _ _ _ e => e.surrounds.append_left _
  | .assign _ _ _ e => e.surrounds.append_left _
  | .first _ _ _ _ a _ _ _ _ _ _ =>
    (((((a.surrounds.append_left _).append_right _).append_right _).append_right _).append_right
      _).append_right _
  | .last _ _ _ _ _ _ b _ _ _ _ =>
    (((b.surrounds.append_left _).append_right _).append_right _).append_right _
  | .loopBody _ _ _ _ _ _ _ _ body _ _ => (body.surrounds.append_left _).append_right _
  | .thenCond _ c _ _ _ _ =>
    (((c.surrounds.append_left _).append_right _).append_right _).append_right _
  | .thenBody _ _ _ body _ _ => (body.surrounds.append_left _).append_right _
  | .elseCond _ c _ _ _ _ _ _ =>
    (((((c.surrounds.append_left _).append_right _).append_right _).append_right _).append_right
      _).append_right _
  | .elseBody _ _ _ body _ _ _ _ =>
    (((body.surrounds.append_left _).append_right _).append_right _).append_right _
  | .otherwise _ _ _ _ _ otherwise _ _ => (otherwise.surrounds.append_left _).append_right _
  | .print _ e => e.surrounds.append_left _
  | .assert _ _ c _ => (c.surrounds.append_left _).append_right _

/-- The tokens before what is in focus, and those after it, are the same after every edit. -/
theorem Block.Focus.surrounds : (F : Block.Focus) → Surrounds F.node fun f => (F.edit f).tokens
  | .head s _ _ => (s.surrounds.append_right _).append_right _
  | .tail _ _ rest => rest.surrounds.append_left _

end

/-! ## All that can be in focus -/

section

variable {x : Part} {G : Expr.Focus}

mutual

theorem Operand.exists_focus (d : Operand) (hG : G.edit .keep = x.inner) {before : List Token}
    (hx : x ∈ d.parts before) : ∃ F : Operand.Focus, F.edit .keep = d ∧ F.node = G.node := by
  cases d with
  | literal p l => cases hx
  | var p y => cases hx
  | group p e q =>
    obtain ⟨F, hF, hnode⟩ := e.exists_focus hG hx
    exact ⟨.group p F q, by rw [Operand.Focus.edit, hF], hnode⟩
termination_by structural d

theorem Expr.exists_focus (d : Expr) (hG : G.edit .keep = x.inner) {before : List Token}
    (hx : x ∈ d.parts before) : ∃ F : Expr.Focus, F.edit .keep = d ∧ F.node = G.node := by
  cases d with
  | single o =>
    rcases List.mem_append.1 hx with hx | hx
    · obtain ⟨F, hF, hnode⟩ := o.exists_focus hG hx
      exact ⟨.single F, by rw [Expr.Focus.edit, hF], hnode⟩
    · obtain rfl := List.mem_singleton.1 hx
      exact ⟨G, hG, rfl⟩
  | negation p o =>
    rcases List.mem_append.1 hx with hx | hx
    · obtain ⟨F, hF, hnode⟩ := o.exists_focus hG hx
      exact ⟨.negation p F, by rw [Expr.Focus.edit, hF], hnode⟩
    · obtain rfl := List.mem_singleton.1 hx
      exact ⟨G, hG, rfl⟩
  | binary l op p r =>
    rcases List.mem_append.1 hx with hx | hx
    · rcases List.mem_append.1 hx with hx | hx
      · obtain ⟨F, hF, hnode⟩ := l.exists_focus hG hx
        exact ⟨.left F op p r, by rw [Expr.Focus.edit, hF], hnode⟩
      · obtain ⟨F, hF, hnode⟩ := r.exists_focus hG hx
        exact ⟨.right l op p F, by rw [Expr.Focus.edit, hF], hnode⟩
    · obtain rfl := List.mem_singleton.1 hx
      exact ⟨G, hG, rfl⟩
termination_by structural d

end

mutual

theorem Stmt.exists_focus (d : Stmt) (hG : G.edit .keep = x.inner) {before : List Token}
    (hx : x ∈ d.parts before) : ∃ F : Stmt.Focus, F.edit .keep = d ∧ F.node = G.node := by
  cases d with
  | declare => cases hx
  | read => cases hx
  | declareInit p₁ p y p₂ p₃ ty p₄ e =>
    obtain ⟨F, hF, hnode⟩ := e.exists_focus hG hx
    exact ⟨.declareInit p₁ p y p₂ p₃ ty p₄ F, by rw [Stmt.Focus.edit, hF], hnode⟩
  | assign p y p₁ e =>
    obtain ⟨F, hF, hnode⟩ := e.exists_focus hG hx
    exact ⟨.assign p y p₁ F, by rw [Stmt.Focus.edit, hF], hnode⟩
  | forLoop p₁ p y p₂ a p₃ b p₄ body p₅ p₆ =>
    rcases List.mem_append.1 hx with hx | hx
    · rcases List.mem_append.1 hx with hx | hx
      · obtain ⟨F, hF, hnode⟩ := a.exists_focus hG hx
        exact ⟨.first p₁ p y p₂ F p₃ b p₄ body p₅ p₆, by rw [Stmt.Focus.edit, hF], hnode⟩
      · obtain ⟨F, hF, hnode⟩ := b.exists_focus hG hx
        exact ⟨.last p₁ p y p₂ a p₃ F p₄ body p₅ p₆, by rw [Stmt.Focus.edit, hF], hnode⟩
    · obtain ⟨F, hF, hnode⟩ := body.exists_focus hG hx
      exact ⟨.loopBody p₁ p y p₂ a p₃ b p₄ F p₅ p₆, by rw [Stmt.Focus.edit, hF], hnode⟩
  | ifThen p c p₁ body p₂ p₃ =>
    rcases List.mem_append.1 hx with hx | hx
    · obtain ⟨F, hF, hnode⟩ := c.exists_focus hG hx
      exact ⟨.thenCond p F p₁ body p₂ p₃, by rw [Stmt.Focus.edit, hF], hnode⟩
    · obtain ⟨F, hF, hnode⟩ := body.exists_focus hG hx
      exact ⟨.thenBody p c p₁ F p₂ p₃, by rw [Stmt.Focus.edit, hF], hnode⟩
  | ifElse p c p₁ body p₂ otherwise p₃ p₄ =>
    rcases List.mem_append.1 hx with hx | hx
    · rcases List.mem_append.1 hx with hx | hx
      · obtain ⟨F, hF, hnode⟩ := c.exists_focus hG hx
        exact ⟨.elseCond p F p₁ body p₂ otherwise p₃ p₄, by rw [Stmt.Focus.edit, hF], hnode⟩
      · obtain ⟨F, hF, hnode⟩ := body.exists_focus hG hx
        exact ⟨.elseBody p c p₁ F p₂ otherwise p₃ p₄, by rw [Stmt.Focus.edit, hF], hnode⟩
    · obtain ⟨F, hF, hnode⟩ := otherwise.exists_focus hG hx
      exact ⟨.otherwise p c p₁ body p₂ F p₃ p₄, by rw [Stmt.Focus.edit, hF], hnode⟩
  | print p e =>
    obtain ⟨F, hF, hnode⟩ := e.exists_focus hG hx
    exact ⟨.print p F, by rw [Stmt.Focus.edit, hF], hnode⟩
  | assert p p₁ c p₂ =>
    obtain ⟨F, hF, hnode⟩ := c.exists_focus hG hx
    exact ⟨.assert p p₁ F p₂, by rw [Stmt.Focus.edit, hF], hnode⟩
termination_by structural d

/-- What can be in focus in an expression of a block can be in focus in the block. -/
theorem Block.exists_focus (d : Block) (hG : G.edit .keep = x.inner) {before : List Token}
    (hx : x ∈ d.parts before) : ∃ F : Block.Focus, F.edit .keep = d ∧ F.node = G.node := by
  cases d with
  | nil => cases hx
  | cons s p rest =>
    rcases List.mem_append.1 hx with hx | hx
    · obtain ⟨F, hF, hnode⟩ := s.exists_focus hG hx
      exact ⟨.head F p rest, by rw [Block.Focus.edit, hF], hnode⟩
    · obtain ⟨F, hF, hnode⟩ := rest.exists_focus hG hx
      exact ⟨.tail s p F, by rw [Block.Focus.edit, hF], hnode⟩
termination_by structural d

end

end

end MiniPL.Derivation
