import MiniPL.Proofs.Syntax.Parts
import MiniPL.Proofs.Syntax.Shape
import MiniPL.Token.Stream

/-!
# Other positions

Tokens and trees may be moved to other positions, each position to that given by one function,
whatever function it is (`Stream.relocate`, `Block.relocate`). Labels are dropped on the way, so
trees that differ in their labels only are moved to the same tree (`Block.relocate_numberFrom`),
and a tree without labels is moved to itself if its positions are not moved
(`Block.relocate_id`). Names stay as they are (`Block.names_relocate`). What is left if everything
is moved to the start is the shape of a tree (`Block.relocate_start`).
-/

namespace MiniPL

/-- The thing at another position. -/
def Located.relocate {φ : Type} (g : Pos → Pos) (f : Located φ) : Located φ := ⟨f.thing, g f.pos⟩

/-- The token at another position. -/
def Token.relocate (g : Pos → Pos) (t : Token) : Token := ⟨t.lexeme, g t.pos⟩

/-- The item at another position. -/
def Item.relocate (g : Pos → Pos) : Item → Item
  | token t => token (t.relocate g)
  | eof p => eof (g p)

namespace Stream

/-- The end at another position. -/
def End.relocate (g : Pos → Pos) : End → End
  | eof p => eof (g p)
  | fault r => fault (r.relocate g)

/-- The stream with all items at other positions. -/
def relocate (g : Pos → Pos) (s : Stream) : Stream :=
  ⟨s.tokens.map (·.relocate g), s.ending.relocate g⟩

/-- The position of the end of the program, or of the fault. -/
def End.pos : End → Pos
  | eof p => p
  | fault r => r.pos

/-- The positions of the tokens of a stream, and of its end. -/
def positions (s : Stream) : List Pos := s.tokens.map Token.pos ++ [s.ending.pos]

theorem relocate_eq_self {g : Pos → Pos} {s : Stream} (h : ∀ p ∈ s.positions, g p = p) :
    s.relocate g = s := by
  obtain ⟨ts, e⟩ := s
  obtain ⟨hts, he⟩ := List.forall_mem_append.1 h
  have htokens : ts.map (·.relocate g) = ts :=
    (List.map_congr_left fun t ht =>
      congrArg (Token.mk t.lexeme) (hts t.pos (List.mem_map_of_mem ht))).trans (List.map_id' ts)
  have hend : g e.pos = e.pos := he e.pos (List.mem_singleton.2 rfl)
  rw [relocate, htokens]
  cases e with
  | eof p => exact congrArg (fun q => mk ts (.eof q)) hend
  | fault r => exact congrArg (fun q => mk ts (.fault ⟨r.thing, q⟩)) hend

end Stream

variable {α : Type} (g : Pos → Pos)

@[simp] theorem Item.kind_relocate (i : Item) : (i.relocate g).kind = i.kind := by cases i <;> rfl

@[simp] theorem Item.pos_relocate (i : Item) : (i.relocate g).pos = g i.pos := by cases i <;> rfl

/-! ## Trees -/

mutual

/-- The operand at other positions, without labels. -/
def Operand.relocate (g : Pos → Pos) : Operand α → Operand Unit
  | .literal p l => .literal (g p) l
  | .var p x => .var (g p) x
  | .group p e => .group (g p) (e.relocate g)

/-- The expression at other positions, without labels. -/
def Expr.relocate (g : Pos → Pos) : Expr α → Expr Unit
  | .single _ o => .single () (o.relocate g)
  | .negation _ p o => .negation () (g p) (o.relocate g)
  | .binary _ l op p r => .binary () (l.relocate g) op (g p) (r.relocate g)

end

mutual

/-- The statement at other positions, without labels. -/
def Stmt.relocate (g : Pos → Pos) : Stmt α → Stmt Unit
  | .declare p x ty none => .declare (g p) x ty none
  | .declare p x ty (some e) => .declare (g p) x ty (some (e.relocate g))
  | .assign p x e => .assign (g p) x (e.relocate g)
  | .forLoop p x a b body =>
    .forLoop (g p) x (a.relocate g) (b.relocate g) (Block.relocate g body)
  | .ifThen p c body => .ifThen (g p) (c.relocate g) (Block.relocate g body)
  | .ifElse p c body otherwise =>
    .ifElse (g p) (c.relocate g) (Block.relocate g body) (Block.relocate g otherwise)
  | .print p e => .print (g p) (e.relocate g)
  | .read p x => .read (g p) x
  | .assert p c => .assert (g p) (c.relocate g)

/-- The block at other positions, without labels. -/
def Block.relocate (g : Pos → Pos) : Block α → Block Unit
  | [] => []
  | s :: rest => s.relocate g :: Block.relocate g rest

end

@[simp] theorem Operand.pos_relocate (o : Operand α) : (o.relocate g).pos = g o.pos := by
  cases o <;> rfl

@[simp] theorem Expr.pos_relocate (e : Expr α) : (e.relocate g).pos = g e.pos := by
  cases e with
  | single a o => exact o.pos_relocate g
  | negation a p o => rfl
  | binary a l op p r => exact l.pos_relocate g

@[simp] theorem Stmt.pos_relocate (s : Stmt α) : (s.relocate g).pos = g s.pos := by
  rcases s with ⟨p, x, ty, _ | e⟩ | _ | _ | _ | _ | _ | _ | _ <;> rfl

@[simp] theorem Stmt.title_relocate (s : Stmt α) : (s.relocate g).title = s.title := by
  rcases s with ⟨p, x, ty, _ | e⟩ | _ | _ | _ | _ | _ | _ | _ <;> rfl

theorem Block.relocate_eq_map (b : Block α) : Block.relocate g b = b.map (·.relocate g) := by
  induction b with
  | nil => rfl
  | cons s rest ih => rw [Block.relocate, ih, List.map_cons]

/-! ### Numbers -/

mutual

theorem Operand.relocate_numberFrom (n : Nat) :
    (o : Operand α) → (o.numberFrom n).relocate g = o.relocate g
  | .literal .. => rfl
  | .var .. => rfl
  | .group _ e => by
    rw [Operand.numberFrom, Operand.relocate, e.relocate_numberFrom, Operand.relocate]

theorem Expr.relocate_numberFrom (n : Nat) :
    (e : Expr α) → (e.numberFrom n).relocate g = e.relocate g
  | .single _ o => by rw [Expr.numberFrom, Expr.relocate, o.relocate_numberFrom, Expr.relocate]
  | .negation _ _ o => by rw [Expr.numberFrom, Expr.relocate, o.relocate_numberFrom, Expr.relocate]
  | .binary _ l _ _ r => by
    rw [Expr.numberFrom, Expr.relocate, l.relocate_numberFrom, r.relocate_numberFrom, Expr.relocate]

end

mutual

theorem Stmt.relocate_numberFrom (n : Nat) :
    (s : Stmt α) → (s.numberFrom n).relocate g = s.relocate g
  | .declare _ _ _ none => rfl
  | .declare _ _ _ (some e) => by
    rw [Stmt.numberFrom, Stmt.relocate, e.relocate_numberFrom, Stmt.relocate]
  | .assign _ _ e => by rw [Stmt.numberFrom, Stmt.relocate, e.relocate_numberFrom, Stmt.relocate]
  | .forLoop _ _ a b body => by
    rw [Stmt.numberFrom, Stmt.relocate, a.relocate_numberFrom, b.relocate_numberFrom,
      Block.relocate_numberFrom _ body, Stmt.relocate]
  | .ifThen _ c body => by
    rw [Stmt.numberFrom, Stmt.relocate, c.relocate_numberFrom, Block.relocate_numberFrom _ body,
      Stmt.relocate]
  | .ifElse _ c body otherwise => by
    rw [Stmt.numberFrom, Stmt.relocate, c.relocate_numberFrom, Block.relocate_numberFrom _ body,
      Block.relocate_numberFrom _ otherwise, Stmt.relocate]
  | .print _ e => by rw [Stmt.numberFrom, Stmt.relocate, e.relocate_numberFrom, Stmt.relocate]
  | .read .. => rfl
  | .assert _ c => by rw [Stmt.numberFrom, Stmt.relocate, c.relocate_numberFrom, Stmt.relocate]

/-- Numbers do not matter. -/
theorem Block.relocate_numberFrom (n : Nat) :
    (b : Block α) → Block.relocate g (Block.numberFrom n b) = Block.relocate g b
  | [] => rfl
  | s :: rest => by
    rw [Block.numberFrom, Block.relocate, s.relocate_numberFrom, Block.relocate_numberFrom _ rest,
      Block.relocate]

end

/-! ### Names -/

mutual

theorem Operand.names_relocate : (o : Operand α) → (o.relocate g).names = o.names
  | .literal .. => rfl
  | .var .. => rfl
  | .group _ e => e.names_relocate

theorem Expr.names_relocate : (e : Expr α) → (e.relocate g).names = e.names
  | .single _ o => o.names_relocate
  | .negation _ _ o => o.names_relocate
  | .binary _ l _ _ r => by
    rw [Expr.relocate, Expr.names, l.names_relocate, r.names_relocate, Expr.names]

end

mutual

theorem Stmt.names_relocate : (s : Stmt α) → (s.relocate g).names = s.names
  | .declare _ _ _ none => rfl
  | .declare _ _ _ (some e) => by rw [Stmt.relocate, Stmt.names, e.names_relocate, Stmt.names]
  | .assign _ _ e => by rw [Stmt.relocate, Stmt.names, e.names_relocate, Stmt.names]
  | .forLoop _ _ a b body => by
    rw [Stmt.relocate, Stmt.names, a.names_relocate, b.names_relocate, Block.names_relocate body,
      Stmt.names]
  | .ifThen _ c body => by
    rw [Stmt.relocate, Stmt.names, c.names_relocate, Block.names_relocate body, Stmt.names]
  | .ifElse _ c body otherwise => by
    rw [Stmt.relocate, Stmt.names, c.names_relocate, Block.names_relocate body,
      Block.names_relocate otherwise, Stmt.names]
  | .print _ e => e.names_relocate g
  | .read .. => rfl
  | .assert _ c => c.names_relocate g

theorem Block.names_relocate : (b : Block α) → Block.names (Block.relocate g b) = Block.names b
  | [] => rfl
  | s :: rest => by
    rw [Block.relocate, Block.names, s.names_relocate, Block.names_relocate rest, Block.names]

end

theorem Expr.names_number (e : Expr α) : e.number.names = e.names := by
  rw [← e.number.names_relocate id, Expr.number, e.relocate_numberFrom, e.names_relocate]

/-- A program has the same names with numbers. -/
theorem Block.names_number (b : Block α) : Block.names (Block.number b) = Block.names b := by
  rw [← Block.names_relocate id, Block.number, Block.relocate_numberFrom, Block.names_relocate]

/-! ### Expressions -/

mutual

theorem Operand.exprs_relocate :
    (o : Operand α) → (o.relocate g).exprs = o.exprs.map (Expr.relocate g)
  | .literal .. => rfl
  | .var .. => rfl
  | .group _ e => e.exprs_relocate

theorem Expr.exprs_relocate :
    (e : Expr α) → (e.relocate g).exprs = e.exprs.map (Expr.relocate g)
  | .single _ o => by
    rw [Expr.relocate, Expr.exprs, o.exprs_relocate, Expr.exprs, List.map_append]
    rfl
  | .negation _ _ o => by
    rw [Expr.relocate, Expr.exprs, o.exprs_relocate, Expr.exprs, List.map_append]
    rfl
  | .binary _ l _ _ r => by
    rw [Expr.relocate, Expr.exprs, l.exprs_relocate, r.exprs_relocate, Expr.exprs,
      List.map_append, List.map_append]
    rfl

end

mutual

theorem Stmt.exprs_relocate :
    (s : Stmt α) → (s.relocate g).exprs = s.exprs.map (Expr.relocate g)
  | .declare _ _ _ none => rfl
  | .declare _ _ _ (some e) => e.exprs_relocate g
  | .assign _ _ e => e.exprs_relocate g
  | .forLoop _ _ a b body => by
    rw [Stmt.relocate, Stmt.exprs, a.exprs_relocate, b.exprs_relocate, Block.exprs_relocate body,
      Stmt.exprs, List.map_append, List.map_append]
  | .ifThen _ c body => by
    rw [Stmt.relocate, Stmt.exprs, c.exprs_relocate, Block.exprs_relocate body, Stmt.exprs,
      List.map_append]
  | .ifElse _ c body otherwise => by
    rw [Stmt.relocate, Stmt.exprs, c.exprs_relocate, Block.exprs_relocate body,
      Block.exprs_relocate otherwise, Stmt.exprs, List.map_append, List.map_append]
  | .print _ e => e.exprs_relocate g
  | .read .. => rfl
  | .assert _ c => c.exprs_relocate g

theorem Block.exprs_relocate : (b : Block α) →
    Block.exprs (Block.relocate g b) = (Block.exprs b).map (Expr.relocate g)
  | [] => rfl
  | s :: rest => by
    rw [Block.relocate, Block.exprs, s.exprs_relocate, Block.exprs_relocate rest, Block.exprs,
      List.map_append]

end

/-! ### Positions that are kept -/

mutual

theorem Operand.relocate_id : (o : Operand Unit) → o.relocate id = o
  | .literal .. => rfl
  | .var .. => rfl
  | .group p e => by rw [Operand.relocate, e.relocate_id, id]

theorem Expr.relocate_id : (e : Expr Unit) → e.relocate id = e
  | .single _ o => by rw [Expr.relocate, o.relocate_id]
  | .negation _ p o => by rw [Expr.relocate, o.relocate_id, id]
  | .binary _ l op p r => by rw [Expr.relocate, l.relocate_id, r.relocate_id, id]

end

mutual

theorem Stmt.relocate_id : (s : Stmt Unit) → s.relocate id = s
  | .declare _ _ _ none => rfl
  | .declare _ _ _ (some e) => by rw [Stmt.relocate, e.relocate_id, id]
  | .assign _ _ e => by rw [Stmt.relocate, e.relocate_id, id]
  | .forLoop _ _ a b body => by
    rw [Stmt.relocate, a.relocate_id, b.relocate_id, Block.relocate_id body, id]
  | .ifThen _ c body => by rw [Stmt.relocate, c.relocate_id, Block.relocate_id body, id]
  | .ifElse _ c body otherwise => by
    rw [Stmt.relocate, c.relocate_id, Block.relocate_id body, Block.relocate_id otherwise, id]
  | .print _ e => by rw [Stmt.relocate, e.relocate_id, id]
  | .read .. => rfl
  | .assert _ c => by rw [Stmt.relocate, c.relocate_id, id]

/-- If positions are not moved, neither is a block without labels. -/
theorem Block.relocate_id : (b : Block Unit) → Block.relocate id b = b
  | [] => rfl
  | s :: rest => by rw [Block.relocate, s.relocate_id, Block.relocate_id rest]

end

/-! ### Positions that are all the same -/

mutual

theorem Operand.relocate_start : (o : Operand α) → (o.relocate fun _ => .start) = o.bare
  | .literal .. => rfl
  | .var .. => rfl
  | .group _ e => by rw [Operand.relocate, e.relocate_start, Operand.bare]

theorem Expr.relocate_start : (e : Expr α) → (e.relocate fun _ => .start) = e.bare
  | .single _ o => by rw [Expr.relocate, o.relocate_start, Expr.bare]
  | .negation _ _ o => by rw [Expr.relocate, o.relocate_start, Expr.bare]
  | .binary _ l _ _ r => by rw [Expr.relocate, l.relocate_start, r.relocate_start, Expr.bare]

end

mutual

theorem Stmt.relocate_start : (s : Stmt α) → (s.relocate fun _ => .start) = s.bare
  | .declare _ _ _ none => rfl
  | .declare _ _ _ (some e) => by rw [Stmt.relocate, e.relocate_start, Stmt.bare]
  | .assign _ _ e => by rw [Stmt.relocate, e.relocate_start, Stmt.bare]
  | .forLoop _ _ a b body => by
    rw [Stmt.relocate, a.relocate_start, b.relocate_start, Block.relocate_start body, Stmt.bare]
  | .ifThen _ c body => by
    rw [Stmt.relocate, c.relocate_start, Block.relocate_start body, Stmt.bare]
  | .ifElse _ c body otherwise => by
    rw [Stmt.relocate, c.relocate_start, Block.relocate_start body,
      Block.relocate_start otherwise, Stmt.bare]
  | .print _ e => by rw [Stmt.relocate, e.relocate_start, Stmt.bare]
  | .read .. => rfl
  | .assert _ c => by rw [Stmt.relocate, c.relocate_start, Stmt.bare]

/-- With all its positions at the start, a block is no more than its shape. -/
theorem Block.relocate_start : (b : Block α) → Block.relocate (fun _ => .start) b = Block.bare b
  | [] => rfl
  | s :: rest => by rw [Block.relocate, s.relocate_start, Block.relocate_start rest, Block.bare]

end

end MiniPL
