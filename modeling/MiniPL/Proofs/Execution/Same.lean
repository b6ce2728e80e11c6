import MiniPL.Execution

/-!
# Programs that are the same to all phases

Two expressions are *the same* to the check and to a run if they stand at the same place, and have
the same type, the same faults and the same value on all variables (`Expr.Same`). Two statements
are, if they have the same faults, leave the same variables after the check, and run in the same way
(`Stmt.Same`); and so for blocks.

What is made of parts that are the same is the same. So a part of a program may be replaced by one
that is the same, at any depth.
-/

namespace MiniPL

variable {α : Type}

/-- Two operands that are the same to the check and to a run. -/
structure Operand.Same (o o' : Operand α) : Prop where
  pos : o.pos = o'.pos
  ty? : ∀ σ, o.ty? σ = o'.ty? σ
  faults : ∀ σ, o.faults σ = o'.faults σ
  eval : ∀ σ, o.eval σ = o'.eval σ

/-- Two expressions that are the same to the check and to a run. -/
structure Expr.Same (e e' : Expr α) : Prop where
  pos : e.pos = e'.pos
  ty? : ∀ σ, e.ty? σ = e'.ty? σ
  faults : ∀ σ, e.faults σ = e'.faults σ
  eval : ∀ σ, e.eval σ = e'.eval σ

/-- Two statements that are the same to the check and to a run. -/
structure Stmt.Same (s s' : Stmt α) : Prop where
  faults : ∀ σ, s.faults σ = s'.faults σ
  extend : ∀ σ, s.extend σ = s'.extend σ
  exec : ∀ r, s.exec r = s'.exec r

/-- Two blocks that are the same to the check and to a run. -/
structure Block.Same (b b' : Block α) : Prop where
  faults : ∀ σ, Block.faults σ b = Block.faults σ b'
  extend : ∀ σ, Block.extend σ b = Block.extend σ b'
  exec : ∀ r, Block.exec b r = Block.exec b' r

/-! ## Expressions -/

theorem Operand.Same.refl (o : Operand α) : o.Same o :=
  ⟨rfl, fun _ => rfl, fun _ => rfl, fun _ => rfl⟩

theorem Expr.Same.refl (e : Expr α) : e.Same e := ⟨rfl, fun _ => rfl, fun _ => rfl, fun _ => rfl⟩

theorem Expr.Same.group {e e' : Expr α} (h : e.Same e') (p : Pos) :
    (Operand.group p e).Same (.group p e') :=
  ⟨rfl, h.ty?, h.faults, h.eval⟩

/-- An operand in parentheses is the same, if these stand where it stands. -/
theorem Operand.same_group (a : α) (o : Operand α) : o.Same (.group o.pos (.single a o)) :=
  ⟨rfl, fun _ => rfl, fun _ => rfl, fun _ => rfl⟩

/-- So is an expression. -/
theorem Expr.same_group (a : α) (e : Expr α) : e.Same (.single a (.group e.pos e)) :=
  ⟨rfl, fun _ => rfl, fun _ => rfl, fun _ => rfl⟩

section

variable {o o' l l' r r' : Operand α}

theorem Operand.Same.single (h : o.Same o') (a : α) : (Expr.single a o).Same (.single a o') :=
  ⟨h.pos, h.ty?, h.faults, h.eval⟩

theorem Operand.Same.negation (h : o.Same o') (a : α) (p : Pos) :
    (Expr.negation a p o).Same (.negation a p o') where
  pos := rfl
  ty? _ := rfl
  faults σ := by rw [Expr.faults, Expr.faults, h.faults, h.ty?, h.pos]
  eval σ := by rw [Expr.eval, Expr.eval, h.eval]

theorem Operand.Same.binary (hl : l.Same l') (hr : r.Same r') (a : α) (op : BinOp) (p : Pos) :
    (Expr.binary a l op p r).Same (.binary a l' op p r') where
  pos := hl.pos
  ty? σ := by rw [Expr.ty?, Expr.ty?, hl.ty?, hr.ty?]
  faults σ := by
    rw [Expr.faults, Expr.faults, hl.faults, hr.faults, hl.ty?, hr.ty?, hr.pos]
  eval σ := by rw [Expr.eval, Expr.eval, hl.eval, hr.eval, hl.ty?, hr.ty?]

end

/-! ## Statements -/

section

variable {e e' a a' b b' c c' : Expr α} {body body' otherwise otherwise' : Block α}

theorem Expr.Same.declare (h : e.Same e') (p : Pos) (x : String) (ty : Ty) :
    (Stmt.declare p x ty (some e)).Same (.declare p x ty (some e')) where
  faults σ := by simp only [Stmt.faults, h.faults, h.ty?, h.pos]
  extend _ := rfl
  exec r := by
    rw [Stmt.exec, Stmt.exec, h.eval]
    rfl

theorem Expr.Same.assign (h : e.Same e') (p : Pos) (x : String) :
    (Stmt.assign p x e).Same (.assign p x e') where
  faults σ := by rw [Stmt.faults, Stmt.faults, h.faults, h.ty?, h.pos]
  extend _ := rfl
  exec r := by
    rw [Stmt.exec, Stmt.exec, h.eval]
    rfl

theorem Expr.Same.forLoop (ha : a.Same a') (hb : b.Same b') (hbody : Block.Same body body')
    (p : Pos) (x : String) : (Stmt.forLoop p x a b body).Same (.forLoop p x a' b' body') where
  faults σ := by
    rw [Stmt.faults, Stmt.faults, ha.faults, ha.ty?, ha.pos, hb.faults, hb.ty?, hb.pos,
      hbody.faults]
  extend := hbody.extend
  exec r := by
    rw [Stmt.exec, Stmt.exec, ha.eval, hb.eval, funext hbody.exec]
    rfl

theorem Expr.Same.ifThen (hc : c.Same c') (hbody : Block.Same body body') (p : Pos) :
    (Stmt.ifThen p c body).Same (.ifThen p c' body') where
  faults σ := by rw [Stmt.faults, Stmt.faults, hc.faults, hc.ty?, hc.pos, hbody.faults]
  extend := hbody.extend
  exec r := by
    rw [Stmt.exec, Stmt.exec, hc.eval, funext hbody.exec]
    rfl

theorem Expr.Same.ifElse (hc : c.Same c') (hbody : Block.Same body body')
    (hotherwise : Block.Same otherwise otherwise') (p : Pos) :
    (Stmt.ifElse p c body otherwise).Same (.ifElse p c' body' otherwise') where
  faults σ := by
    rw [Stmt.faults, Stmt.faults, hc.faults, hc.ty?, hc.pos, hbody.faults, hbody.extend,
      hotherwise.faults]
  extend σ := by rw [Stmt.extend, Stmt.extend, hbody.extend, hotherwise.extend]
  exec r := by
    rw [Stmt.exec, Stmt.exec, hc.eval, funext hbody.exec, funext hotherwise.exec]
    rfl

theorem Expr.Same.print (h : e.Same e') (p : Pos) : (Stmt.print p e).Same (.print p e') where
  faults := h.faults
  extend _ := rfl
  exec r := by
    rw [Stmt.exec, Stmt.exec, h.eval]
    rfl

theorem Expr.Same.assert (h : e.Same e') (p : Pos) : (Stmt.assert p e).Same (.assert p e') where
  faults σ := by rw [Stmt.faults, Stmt.faults, h.faults, h.ty?, h.pos]
  extend _ := rfl
  exec r := by
    rw [Stmt.exec, Stmt.exec, h.eval, h.pos]
    rfl

end

/-! ## Blocks -/

theorem Stmt.Same.refl (s : Stmt α) : s.Same s := ⟨fun _ => rfl, fun _ => rfl, fun _ => rfl⟩

theorem Block.Same.refl (b : Block α) : Block.Same b b := ⟨fun _ => rfl, fun _ => rfl, fun _ => rfl⟩

theorem Stmt.Same.cons {s s' : Stmt α} {b b' : Block α} (hs : s.Same s') (hb : Block.Same b b') :
    Block.Same (s :: b) (s' :: b') where
  faults σ := by rw [Block.faults, Block.faults, hs.faults, hs.extend, hb.faults]
  extend σ := by rw [Block.extend, Block.extend, hs.extend, hb.extend]
  exec r := by rw [Block.exec, Block.exec, hs.exec, funext hb.exec]

end MiniPL
