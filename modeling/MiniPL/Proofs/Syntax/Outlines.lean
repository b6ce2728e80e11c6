import MiniPL.Proofs.Session.Echo
import MiniPL.Proofs.Syntax.Printed
import MiniPL.Syntax.Dump

/-!
# What an outline tells

The outline of a tree leaves out the positions and labels of the tree, and nothing else: parsed
trees with the same outline have the same shape (`SyntaxTree.Parsed.outline_injective`). Outlines
are compared as values (`Outline.Same`), so this does not depend on the order in which the fields
of a record are listed.

A record is known by what it is called. Two things are not told by names: a row of digits and a
text literal are both called literals, and a branch is called the same with or without an
alternative. The first are told apart as a text literal shows its quotes, and a row of digits, in a
tree that is parsed, has digits only (`Literal.eq_of_shown`); the second as a block is never absent.
-/

namespace MiniPL

variable {α β : Type}

/-! ## Outlines as values -/

namespace Outline

mutual

/-- Whether two outlines are the same value: records are the same if they have the same keys, with
    the same values, in any order. -/
def Same : Outline → Outline → Prop
  | leaf l, leaf l' => l = l'
  | list items, list items' => SameItems items items'
  | record fields, record fields' => fields.length = fields'.length ∧ SameFields fields fields'
  | _, _ => False

/-- Whether two lists of items have the same items in the same order. -/
def SameItems : List Outline → List Outline → Prop
  | [], [] => True
  | item :: rest, item' :: rest' => item.Same item' ∧ SameItems rest rest'
  | _, _ => False

/-- Whether the fields are among the fields `fields'`. -/
def SameFields : List (String × Outline) → (fields' : List (String × Outline)) → Prop
  | [], _ => True
  | (key, value) :: rest, fields' =>
    (match fields'.lookup key with
      | some value' => value.Same value'
      | none => False) ∧ SameFields rest fields'

end

@[simp] theorem same_word_iff {s s' : String} : (word s).Same (word s') ↔ s = s' := by
  simp [word, Same]

@[simp] theorem sameFields_nil (fields' : List (String × Outline)) : SameFields [] fields' :=
  trivial

@[simp] theorem sameFields_cons_iff {key : String} {value : Outline}
    {rest fields' : List (String × Outline)} : SameFields ((key, value) :: rest) fields' ↔
      (∃ value' ∈ fields'.lookup key, value.Same value') ∧ SameFields rest fields' := by
  rw [SameFields]
  cases fields'.lookup key <;> simp

/-- Nodes that are the same are called the same. -/
theorem Same.title_eq {title title' : String} {fields fields' : List (String × Outline)}
    (h : (node title fields).Same (node title' fields')) : title = title' := by
  obtain ⟨-, h⟩ := h
  rw [sameFields_cons_iff] at h
  obtain ⟨⟨_, hvalue, h⟩, -⟩ := h
  rw [List.lookup_cons_self] at hvalue
  cases hvalue
  exact same_word_iff.1 h

/-- Nodes that are called the same are the same if their fields are. -/
@[simp] theorem same_node_iff {title : String} {fields fields' : List (String × Outline)} :
    (node title fields).Same (node title fields') ↔ fields.length = fields'.length ∧
      SameFields fields (("type", word title) :: fields') := by
  simp [node, Same]

@[simp] theorem same_absent : absent.Same absent := by
  simp [absent, Same]

/-- What is not there is no node. -/
@[simp] theorem not_same_absent_left {title : String} {fields : List (String × Outline)} :
    ¬ absent.Same (node title fields) := by
  simp [node, absent, Same]

@[simp] theorem not_same_absent_right {title : String} {fields : List (String × Outline)} :
    ¬ (node title fields).Same absent := by
  simp [node, absent, Same]

theorem same_statements_iff {items items' : List Outline} :
    (statements items).Same (statements items') ↔ SameItems items items' := by
  have hlist : (list items).Same (list items') ↔ SameItems items items' := by rw [Same]
  simp [statements, hlist, List.lookup_cons]

end Outline

open Outline (node)

/-! ## Positions and labels -/

mutual

theorem Operand.outline_bare : (o : Operand α) → o.bare.outline = o.outline
  | .literal .. => rfl
  | .var .. => rfl
  | .group _ e => by rw [Operand.bare, Operand.outline, e.outline_bare, Operand.outline]

theorem Expr.outline_bare : (e : Expr α) → e.bare.outline = e.outline
  | .single _ o => by rw [Expr.bare, Expr.outline, o.outline_bare, Expr.outline]
  | .negation _ _ o => by rw [Expr.bare, Expr.outline, o.outline_bare, Expr.outline]
  | .binary _ l _ _ r => by
    rw [Expr.bare, Expr.outline, l.outline_bare, r.outline_bare, Expr.outline]

end

mutual

theorem Stmt.outline_bare : (s : Stmt α) → s.bare.outline = s.outline
  | .declare _ _ _ none => rfl
  | .declare _ _ _ (some e) => by rw [Stmt.bare, Stmt.outline, e.outline_bare, Stmt.outline]
  | .assign _ _ e => by rw [Stmt.bare, Stmt.outline, e.outline_bare, Stmt.outline]
  | .forLoop _ _ a b body => by
    rw [Stmt.bare, Stmt.outline, a.outline_bare, b.outline_bare, Block.outlines_bare body,
      Stmt.outline]
  | .ifThen _ c body => by
    rw [Stmt.bare, Stmt.outline, c.outline_bare, Block.outlines_bare body, Stmt.outline]
  | .ifElse _ c body otherwise => by
    rw [Stmt.bare, Stmt.outline, c.outline_bare, Block.outlines_bare body,
      Block.outlines_bare otherwise, Stmt.outline]
  | .print _ e => by rw [Stmt.bare, Stmt.outline, e.outline_bare, Stmt.outline]
  | .read .. => rfl
  | .assert _ c => by rw [Stmt.bare, Stmt.outline, c.outline_bare, Stmt.outline]

theorem Block.outlines_bare : (b : Block α) → Block.outlines (Block.bare b) = Block.outlines b
  | [] => rfl
  | s :: rest => by
    rw [Block.bare, Block.outlines, s.outline_bare, Block.outlines_bare rest, Block.outlines]

end

/-- The outline of a program is a matter of its shape. -/
theorem Block.outline_bare (b : Block α) : Block.outline (Block.bare b) = Block.outline b := by
  rw [Block.outline, Block.outline, Block.outlines_bare]
  cases b <;> rfl

/-! ## Literals and operators -/

/-- A row of digits has no quote in it, and a text literal starts with one. -/
theorem Literal.eq_of_shown {l l' : Literal} (h : l.lexeme.WellFormed) (h' : l'.lexeme.WellFormed)
    (hshown : l.lexeme.shown = l'.lexeme.shown) : l = l' := by
  have hquote {digits content : String} (hd : (Lexeme.int digits).WellFormed) :
      digits ≠ "\"" ++ content ++ "\"" := by
    rintro rfl
    exact absurd (hd.2 '"' (by simp)) (by decide)
  cases l with
  | int digits =>
    cases l' with
    | int digits' => exact congrArg Literal.int hshown
    | text content => exact absurd hshown (hquote h)
  | text content =>
    cases l' with
    | int digits' => exact absurd hshown.symm (hquote h')
    | text content' =>
      rw [Literal.lexeme, Literal.lexeme, Lexeme.shown, Lexeme.shown, String.append_left_inj,
        String.append_right_inj] at hshown
      rw [hshown]

theorem BinOp.eq_of_symbol_text {op op' : BinOp} (h : op.symbol.text = op'.symbol.text) :
    op = op' := by
  revert h
  cases op <;> cases op' <;> decide

theorem Ty.eq_of_text {ty ty' : Ty} (h : ty.text = ty'.text) : ty = ty' := by
  revert h
  cases ty <;> cases ty' <;> decide

/-! ## Trees with the same outline -/

/-- What an operand is called in its outline. -/
def Operand.title : Operand α → String
  | .literal .. => "Literal"
  | .var .. => "Var"
  | .group .. => "Group"

/-- What an expression is called in its outline. -/
def Expr.title : Expr α → String
  | .single .. => "Single"
  | .negation .. => "Unary"
  | .binary .. => "Binary"

theorem Operand.exists_outline (o : Operand α) : ∃ fields, o.outline = node o.title fields := by
  cases o <;> exact ⟨_, rfl⟩

theorem Expr.exists_outline (e : Expr α) : ∃ fields, e.outline = node e.title fields := by
  cases e <;> exact ⟨_, rfl⟩

/-- No expression is called a program. -/
theorem Expr.title_ne_program (e : Expr α) : e.title ≠ "Program" := by
  cases e <;> simp [title]

theorem Stmt.exists_outline (s : Stmt α) : ∃ fields, s.outline = node s.title fields := by
  rcases s with ⟨_, _, _, _ | _⟩ | _ | _ | _ | _ | _ | _ | _ <;> exact ⟨_, rfl⟩

theorem Operand.title_eq_of_same {o : Operand α} {o' : Operand β} (h : o.outline.Same o'.outline) :
    o.title = o'.title := by
  obtain ⟨fields, ho⟩ := o.exists_outline
  obtain ⟨fields', ho'⟩ := o'.exists_outline
  rw [ho, ho'] at h
  exact h.title_eq

theorem Expr.title_eq_of_same {e : Expr α} {e' : Expr β} (h : e.outline.Same e'.outline) :
    e.title = e'.title := by
  obtain ⟨fields, he⟩ := e.exists_outline
  obtain ⟨fields', he'⟩ := e'.exists_outline
  rw [he, he'] at h
  exact h.title_eq

theorem Stmt.title_eq_of_same {s : Stmt α} {s' : Stmt β} (h : s.outline.Same s'.outline) :
    s.title = s'.title := by
  obtain ⟨fields, hs⟩ := s.exists_outline
  obtain ⟨fields', hs'⟩ := s'.exists_outline
  rw [hs, hs'] at h
  exact h.title_eq

mutual

theorem Operand.bare_eq_of_same : (o : Operand α) → (o' : Operand β) →
    (∀ l ∈ o.lexemes, l.WellFormed) → (∀ l ∈ o'.lexemes, l.WellFormed) →
    o.outline.Same o'.outline → o.bare = o'.bare
  | .literal _ l, o', h, h', hsame => by
    have htitle := Operand.title_eq_of_same hsame
    cases o' with
    | literal _ l' =>
      have hshown : l.lexeme.shown = l'.lexeme.shown := by
        simpa [Operand.outline, List.lookup_cons] using hsame
      rw [Operand.bare, Operand.bare, Literal.eq_of_shown (h _ (.head _)) (h' _ (.head _)) hshown]
    | _ => simp [Operand.title] at htitle
  | .var _ x, o', _, _, hsame => by
    have htitle := Operand.title_eq_of_same hsame
    cases o' with
    | var _ y =>
      have hname : x = y := by
        simpa [Operand.outline, List.lookup_cons] using hsame
      rw [Operand.bare, Operand.bare, hname]
    | _ => simp [Operand.title] at htitle
  | .group _ e, o', h, h', hsame => by
    have htitle := Operand.title_eq_of_same hsame
    cases o' with
    | group _ e' =>
      have he : e.outline.Same e'.outline := by
        simpa [Operand.outline, List.lookup_cons] using hsame
      simp only [Operand.lexemes, List.forall_mem_append] at h h'
      rw [Operand.bare, Operand.bare, e.bare_eq_of_same e' h.1.2 h'.1.2 he]
    | _ => simp [Operand.title] at htitle

theorem Expr.bare_eq_of_same : (e : Expr α) → (e' : Expr β) →
    (∀ l ∈ e.lexemes, l.WellFormed) → (∀ l ∈ e'.lexemes, l.WellFormed) →
    e.outline.Same e'.outline → e.bare = e'.bare
  | .single _ o, e', h, h', hsame => by
    have htitle := Expr.title_eq_of_same hsame
    cases e' with
    | single _ o' =>
      have ho : o.outline.Same o'.outline := by
        simpa [Expr.outline, List.lookup_cons] using hsame
      rw [Expr.bare, Expr.bare, o.bare_eq_of_same o' h h' ho]
    | _ => simp [Expr.title] at htitle
  | .negation _ _ o, e', h, h', hsame => by
    have htitle := Expr.title_eq_of_same hsame
    cases e' with
    | negation _ _ o' =>
      have ho : o.outline.Same o'.outline := by
        simpa [Expr.outline, List.lookup_cons] using hsame
      simp only [Expr.lexemes, List.forall_mem_append] at h h'
      rw [Expr.bare, Expr.bare, o.bare_eq_of_same o' h.2 h'.2 ho]
    | _ => simp [Expr.title] at htitle
  | .binary _ l op _ r, e', h, h', hsame => by
    have htitle := Expr.title_eq_of_same hsame
    cases e' with
    | binary _ l' op' _ r' =>
      obtain ⟨hop, hl, hr⟩ : op.symbol.text = op'.symbol.text ∧ l.outline.Same l'.outline ∧
          r.outline.Same r'.outline := by
        simpa [Expr.outline, List.lookup_cons] using hsame
      simp only [Expr.lexemes, List.forall_mem_append] at h h'
      rw [Expr.bare, Expr.bare, BinOp.eq_of_symbol_text hop, l.bare_eq_of_same l' h.1.1 h'.1.1 hl,
        r.bare_eq_of_same r' h.2 h'.2 hr]
    | _ => simp [Expr.title] at htitle

end

mutual

theorem Stmt.bare_eq_of_same : (s : Stmt α) → (s' : Stmt β) →
    (∀ l ∈ s.lexemes, l.WellFormed) → (∀ l ∈ s'.lexemes, l.WellFormed) →
    s.outline.Same s'.outline → s.bare = s'.bare
  | .declare _ x ty init, s', h, h', hsame => by
    have htitle := Stmt.title_eq_of_same hsame
    cases s' with
    | declare _ y ty' init' =>
      rcases init with _ | e <;> rcases init' with _ | e'
      · obtain ⟨hx, hty⟩ : x = y ∧ ty.text = ty'.text := by
          simpa [Stmt.outline, List.lookup_cons] using hsame
        rw [Stmt.bare, Stmt.bare, hx, Ty.eq_of_text hty]
      · -- The initial value is absent on one side.
        obtain ⟨fields, he⟩ := e'.exists_outline
        simp [Stmt.outline, he, List.lookup_cons] at hsame
      · obtain ⟨fields, he⟩ := e.exists_outline
        simp [Stmt.outline, he, List.lookup_cons] at hsame
      · obtain ⟨hx, hty, he⟩ : x = y ∧ ty.text = ty'.text ∧ e.outline.Same e'.outline := by
          simpa [Stmt.outline, List.lookup_cons] using hsame
        simp only [Stmt.lexemes, List.forall_mem_append] at h h'
        rw [Stmt.bare, Stmt.bare, hx, Ty.eq_of_text hty, e.bare_eq_of_same e' h.2 h'.2 he]
    | _ => simp [Stmt.title] at htitle
  | .assign _ x e, s', h, h', hsame => by
    have htitle := Stmt.title_eq_of_same hsame
    cases s' with
    | assign _ y e' =>
      obtain ⟨hx, he⟩ : x = y ∧ e.outline.Same e'.outline := by
        simpa [Stmt.outline, List.lookup_cons] using hsame
      simp only [Stmt.lexemes, List.forall_mem_append] at h h'
      rw [Stmt.bare, Stmt.bare, hx, e.bare_eq_of_same e' h.2 h'.2 he]
    | _ => simp [Stmt.title] at htitle
  | .forLoop _ x a b body, s', h, h', hsame => by
    have htitle := Stmt.title_eq_of_same hsame
    cases s' with
    | forLoop _ y a' b' body' =>
      obtain ⟨hx, ha, hb, hbody⟩ : x = y ∧ a.outline.Same a'.outline ∧
          b.outline.Same b'.outline ∧
          (Outline.statements (Block.outlines body)).Same (.statements (Block.outlines body')) := by
        simpa [Stmt.outline, List.lookup_cons] using hsame
      simp only [Stmt.lexemes, List.forall_mem_append, and_assoc] at h h'
      obtain ⟨-, hwa, -, hwb, -, hwbody, -⟩ := h
      obtain ⟨-, hwa', -, hwb', -, hwbody', -⟩ := h'
      rw [Stmt.bare, Stmt.bare, hx, a.bare_eq_of_same a' hwa hwa' ha,
        b.bare_eq_of_same b' hwb hwb' hb,
        Block.bare_eq_of_same body body' hwbody hwbody' (Outline.same_statements_iff.1 hbody)]
    | _ => simp [Stmt.title] at htitle
  | .ifThen _ c body, s', h, h', hsame => by
    have htitle := Stmt.title_eq_of_same hsame
    cases s' with
    | ifThen _ c' body' =>
      obtain ⟨hc, hbody⟩ : c.outline.Same c'.outline ∧
          (Outline.statements (Block.outlines body)).Same (.statements (Block.outlines body')) := by
        simpa [Stmt.outline, List.lookup_cons] using hsame
      simp only [Stmt.lexemes, List.forall_mem_append, and_assoc] at h h'
      obtain ⟨-, hwc, -, hwbody, -⟩ := h
      obtain ⟨-, hwc', -, hwbody', -⟩ := h'
      rw [Stmt.bare, Stmt.bare, c.bare_eq_of_same c' hwc hwc' hc,
        Block.bare_eq_of_same body body' hwbody hwbody' (Outline.same_statements_iff.1 hbody)]
    | ifElse _ c' body' otherwise' =>
      -- The alternative is absent on one side, and a block on the other, be it empty.
      simp [Stmt.outline, List.lookup_cons, Outline.statements] at hsame
    | _ => simp [Stmt.title] at htitle
  | .ifElse _ c body otherwise, s', h, h', hsame => by
    have htitle := Stmt.title_eq_of_same hsame
    cases s' with
    | ifThen _ c' body' =>
      simp [Stmt.outline, List.lookup_cons, Outline.statements] at hsame
    | ifElse _ c' body' otherwise' =>
      obtain ⟨hc, hbody, helse⟩ : c.outline.Same c'.outline ∧
          (Outline.statements (Block.outlines body)).Same (.statements (Block.outlines body')) ∧
          (Outline.statements (Block.outlines otherwise)).Same
            (.statements (Block.outlines otherwise')) := by
        simpa [Stmt.outline, List.lookup_cons] using hsame
      simp only [Stmt.lexemes, List.forall_mem_append, and_assoc] at h h'
      obtain ⟨-, hwc, -, hwbody, -, hwelse, -⟩ := h
      obtain ⟨-, hwc', -, hwbody', -, hwelse', -⟩ := h'
      rw [Stmt.bare, Stmt.bare, c.bare_eq_of_same c' hwc hwc' hc,
        Block.bare_eq_of_same body body' hwbody hwbody' (Outline.same_statements_iff.1 hbody),
        Block.bare_eq_of_same otherwise otherwise' hwelse hwelse'
          (Outline.same_statements_iff.1 helse)]
    | _ => simp [Stmt.title] at htitle
  | .print _ e, s', h, h', hsame => by
    have htitle := Stmt.title_eq_of_same hsame
    cases s' with
    | print _ e' =>
      have he : e.outline.Same e'.outline := by
        simpa [Stmt.outline, List.lookup_cons] using hsame
      simp only [Stmt.lexemes, List.forall_mem_append] at h h'
      rw [Stmt.bare, Stmt.bare, e.bare_eq_of_same e' h.2 h'.2 he]
    | _ => simp [Stmt.title] at htitle
  | .read _ x, s', _, _, hsame => by
    have htitle := Stmt.title_eq_of_same hsame
    cases s' with
    | read _ y =>
      have hx : x = y := by
        simpa [Stmt.outline, List.lookup_cons] using hsame
      rw [Stmt.bare, Stmt.bare, hx]
    | _ => simp [Stmt.title] at htitle
  | .assert _ c, s', h, h', hsame => by
    have htitle := Stmt.title_eq_of_same hsame
    cases s' with
    | assert _ c' =>
      have hc : c.outline.Same c'.outline := by
        simpa [Stmt.outline, List.lookup_cons] using hsame
      simp only [Stmt.lexemes, List.forall_mem_append, and_assoc] at h h'
      rw [Stmt.bare, Stmt.bare, c.bare_eq_of_same c' h.2.1 h'.2.1 hc]
    | _ => simp [Stmt.title] at htitle

theorem Block.bare_eq_of_same : (b : Block α) → (b' : Block β) →
    (∀ l ∈ Block.lexemes b, l.WellFormed) → (∀ l ∈ Block.lexemes b', l.WellFormed) →
    Outline.SameItems (Block.outlines b) (Block.outlines b') → Block.bare b = Block.bare b'
  | [], [], _, _, _ => rfl
  | [], _ :: _, _, _, hsame => by simp [Block.outlines, Outline.SameItems] at hsame
  | _ :: _, [], _, _, hsame => by simp [Block.outlines, Outline.SameItems] at hsame
  | s :: rest, s' :: rest', h, h', hsame => by
    obtain ⟨hs, hrest⟩ : s.outline.Same s'.outline ∧
        Outline.SameItems (Block.outlines rest) (Block.outlines rest') := by
      simpa [Block.outlines, Outline.SameItems] using hsame
    simp only [Block.lexemes, List.forall_mem_append, and_assoc] at h h'
    rw [Block.bare, Block.bare, s.bare_eq_of_same s' h.1 h'.1 hs,
      Block.bare_eq_of_same rest rest' h.2.2 h'.2.2 hrest]

end

/-- Programs with the same outline have the same shape, if their lexemes are well formed. -/
theorem Block.bare_eq_of_same_outline {b : Block α} {b' : Block β}
    (h : ∀ l ∈ Block.lexemes b, l.WellFormed) (h' : ∀ l ∈ Block.lexemes b', l.WellFormed)
    (hsame : (Block.outline b).Same (Block.outline b')) : Block.bare b = Block.bare b' := by
  refine Block.bare_eq_of_same b b' h h' ?_
  cases b with
  | nil =>
    cases b' with
    | nil => simp [Block.outlines, Outline.SameItems]
    | cons s' rest' =>
      simp [Block.outline, List.lookup_cons, Outline.statements] at hsame
  | cons s rest =>
    cases b' with
    | nil =>
      simp [Block.outline, List.lookup_cons, Outline.statements] at hsame
    | cons s' rest' =>
      refine Outline.same_statements_iff.1 ?_
      simpa [Block.outline, List.lookup_cons] using hsame

/-! ## Parsed trees -/

namespace Derivation

mutual

theorem Operand.lexemes_tree : (d : Operand) → d.tree.lexemes = d.tokens.map Token.lexeme
  | .literal .. => rfl
  | .var .. => rfl
  | .group _ d _ => by simp [Operand.tree, Operand.tokens, MiniPL.Operand.lexemes, d.lexemes_tree]

/-- The lexemes of an expression are those of its tokens. -/
theorem Expr.lexemes_tree : (d : Expr) → d.tree.lexemes = d.tokens.map Token.lexeme
  | .single d => d.lexemes_tree
  | .negation _ d => by simp [Expr.tree, Expr.tokens, MiniPL.Expr.lexemes, d.lexemes_tree]
  | .binary l _ _ r => by
    simp [Expr.tree, Expr.tokens, MiniPL.Expr.lexemes, l.lexemes_tree, r.lexemes_tree]

end

mutual

theorem Stmt.lexemes_tree : (d : Stmt) → d.tree.lexemes = d.tokens.map Token.lexeme
  | .declare .. => rfl
  | .declareInit _ _ _ _ _ _ _ e => by
    simp [Stmt.tree, Stmt.tokens, MiniPL.Stmt.lexemes, e.lexemes_tree]
  | .assign _ _ _ e => by simp [Stmt.tree, Stmt.tokens, MiniPL.Stmt.lexemes, e.lexemes_tree]
  | .forLoop _ _ _ _ a _ b _ body _ _ => by
    simp [Stmt.tree, Stmt.tokens, MiniPL.Stmt.lexemes, a.lexemes_tree, b.lexemes_tree,
      body.lexemes_tree]
  | .ifThen _ c _ body _ _ => by
    simp [Stmt.tree, Stmt.tokens, MiniPL.Stmt.lexemes, c.lexemes_tree, body.lexemes_tree]
  | .ifElse _ c _ body _ otherwise _ _ => by
    simp [Stmt.tree, Stmt.tokens, MiniPL.Stmt.lexemes, c.lexemes_tree, body.lexemes_tree,
      otherwise.lexemes_tree]
  | .print _ e => by simp [Stmt.tree, Stmt.tokens, MiniPL.Stmt.lexemes, e.lexemes_tree]
  | .read .. => rfl
  | .assert _ _ c _ => by simp [Stmt.tree, Stmt.tokens, MiniPL.Stmt.lexemes, c.lexemes_tree]

/-- The lexemes of a block are those of its tokens. -/
theorem Block.lexemes_tree :
    (d : Block) → MiniPL.Block.lexemes d.tree = d.tokens.map Token.lexeme
  | .nil => rfl
  | .cons s _ rest => by
    simp [Block.tree, Block.tokens, MiniPL.Block.lexemes, s.lexemes_tree, rest.lexemes_tree]

end

end Derivation

/-- What is written is well formed. -/
theorem Lexeme.Written.wellFormed {l : Lexeme} {word : List Char} (h : l.Written word) :
    l.WellFormed := by
  cases h with
  | symbol | keyword | text => trivial
  | name hword hkeyword =>
    refine ⟨by rwa [String.toList_ofList], fun k hk => hkeyword k ?_⟩
    rw [hk, String.toList_ofList]
  | int hne hdigits =>
    exact ⟨fun h => hne (by simpa using h), by rwa [String.toList_ofList]⟩

/-- The lexemes of pieces that are cut rightly are well formed. -/
theorem Piece.Cut.wellFormed {pieces : List Piece} {after : List Char} (h : Cut pieces after)
    (p : Pos) : ∀ t ∈ tokens p pieces, t.lexeme.WellFormed := by
  induction pieces generalizing p with
  | nil => exact nofun
  | cons x rest ih =>
    obtain ⟨-, hx, hrest⟩ := h
    rw [tokens, List.forall_mem_cons]
    exact ⟨hx.written.wellFormed, ih hrest _⟩

/-- The lexemes of a text are well formed. -/
theorem Stream.wellFormed_ofSource (source : String) :
    ∀ t ∈ (ofSource source).tokens, t.lexeme.WellFormed := by
  by_cases h : source = ""
  · rw [ofSource, if_pos h]
    exact fun t ht => absurd ht List.not_mem_nil
  · obtain ⟨pieces, after, -, hcut, htokens, -⟩ := exists_cut h
    rw [htokens]
    exact hcut.wellFormed .start

/-- What a text is parsed as: a program, or a lone expression. -/
inductive SyntaxTree (α : Type)
  | program (b : Block α)
  | expression (e : Expr α)

namespace SyntaxTree

/-- The outline of a tree. -/
def outline : SyntaxTree α → Outline
  | program b => Block.outline b
  | expression e => e.outline

/-- The tree without positions and labels. -/
def bare : SyntaxTree α → SyntaxTree Unit
  | program b => .program (Block.bare b)
  | expression e => .expression e.bare

/-- The lexemes of a tree. -/
def lexemes : SyntaxTree α → List Lexeme
  | program b => Block.lexemes b
  | expression e => e.lexemes

/-- Whether a tree is what some text is parsed as. -/
inductive Parsed : SyntaxTree Nat → Prop
  | program {source : String} {b : Block Nat} (h : (parseProgram source).result = .ok b) :
    Parsed (.program b)
  | expression {source : String} {e : Expr Nat} (h : (parseLoneExpr source).result = .ok e) :
    Parsed (.expression e)

theorem outline_bare (t : SyntaxTree α) : t.bare.outline = t.outline := by
  cases t with
  | program b => exact Block.outline_bare b
  | expression e => exact e.outline_bare

/-- Trees with the same outline have the same shape, if their lexemes are well formed. -/
theorem bare_eq_of_same {t : SyntaxTree α} {t' : SyntaxTree β}
    (h : ∀ l ∈ t.lexemes, l.WellFormed) (h' : ∀ l ∈ t'.lexemes, l.WellFormed)
    (hsame : t.outline.Same t'.outline) : t.bare = t'.bare := by
  cases t with
  | program b =>
    cases t' with
    | program b' => rw [bare, bare, Block.bare_eq_of_same_outline h h' hsame]
    | expression e' =>
      obtain ⟨fields, he⟩ := e'.exists_outline
      rw [outline, outline, Block.outline, he] at hsame
      exact absurd hsame.title_eq.symm e'.title_ne_program
  | expression e =>
    cases t' with
    | program b' =>
      obtain ⟨fields, he⟩ := e.exists_outline
      rw [outline, outline, Block.outline, he] at hsame
      exact absurd hsame.title_eq e.title_ne_program
    | expression e' => rw [bare, bare, e.bare_eq_of_same e' h h' hsame]

/-- A parsed tree has the shape of one whose lexemes are well formed. -/
theorem Parsed.exists_wellFormed {t : SyntaxTree Nat} (h : t.Parsed) :
    ∃ u : SyntaxTree Unit, u.bare = t.bare ∧ ∀ l ∈ u.lexemes, l.WellFormed := by
  cases h with
  | @program source _ h =>
    obtain ⟨b, hb, rfl⟩ := parseProgram_eq_ok_iff.1 h
    obtain ⟨ts, p, hs⟩ := Stream.exists_eof_of_parse hb
    have hwell := Stream.wellFormed_ofSource source
    rw [hs] at hb hwell
    obtain ⟨d, rfl, rfl⟩ := Stream.exists_block_of_parse hb
    refine ⟨.program d.tree, by rw [bare, bare, Block.bare_number], fun l hl => ?_⟩
    rw [lexemes, d.lexemes_tree] at hl
    obtain ⟨t, ht, rfl⟩ := List.mem_map.1 hl
    exact hwell t ht
  | @expression source _ h =>
    obtain ⟨e, he, rfl⟩ := parseLoneExpr_eq_ok_iff.1 h
    obtain ⟨d, hinit, rfl⟩ := Stream.exists_expr_of_parseExpr he
    refine ⟨.expression d.tree, by rw [bare, bare, Expr.number, Expr.bare_numberFrom],
      fun l hl => ?_⟩
    rw [lexemes, d.lexemes_tree] at hl
    obtain ⟨t, ht, rfl⟩ := List.mem_map.1 hl
    exact Stream.wellFormed_ofSource source t (hinit.subset ht)

end SyntaxTree

/-- Parsed trees that have the same outline, be it with the fields of records in another order, are
    the same up to positions and labels; and what is the same up to these has one outline. -/
theorem SyntaxTree.Parsed.outline_injective {t t' : SyntaxTree Nat} (h : t.Parsed)
    (h' : t'.Parsed) :
    (t.outline.Same t'.outline → t.bare = t'.bare) ∧
      (t.bare = t'.bare → t.outline = t'.outline) := by
  refine ⟨fun hsame => ?_, fun hbare => ?_⟩
  · obtain ⟨u, hu, hwell⟩ := h.exists_wellFormed
    obtain ⟨u', hu', hwell'⟩ := h'.exists_wellFormed
    rw [← hu, ← hu']
    refine bare_eq_of_same hwell hwell' ?_
    rwa [← u.outline_bare, ← u'.outline_bare, hu, hu', outline_bare, outline_bare]
  · rw [← t.outline_bare, ← t'.outline_bare, hbare]

/-- A branch with an empty alternative, and one without an alternative. -/
theorem SyntaxTree.Parsed.outline_injective_of_empty_alternative :
    ∃ b b' : Block Nat, (parseProgram "if 1 = 1 do print \"1\"; else end if;").result = .ok b ∧
      (parseProgram "if 1 = 1 do print \"1\"; end if;").result = .ok b' ∧
      ¬ (Block.outline b).Same (Block.outline b') := by
  obtain ⟨b, hb, hlexemes⟩ := exists_eq_ok_of_toOption
    (x := (parseProgram "if 1 = 1 do print \"1\"; else end if;").result)
    (f := fun b => (Block.lexemes (Block.bare b)).contains (.keyword .elseK)) (b := true)
    (by decide +kernel)
  obtain ⟨b', hb', hlexemes'⟩ := exists_eq_ok_of_toOption
    (x := (parseProgram "if 1 = 1 do print \"1\"; end if;").result)
    (f := fun b => (Block.lexemes (Block.bare b)).contains (.keyword .elseK)) (b := false)
    (by decide +kernel)
  refine ⟨b, b', hb, hb', fun hsame => ?_⟩
  have hbare := (SyntaxTree.Parsed.outline_injective (.program hb) (.program hb')).1 hsame
  rw [SyntaxTree.bare, SyntaxTree.bare, SyntaxTree.program.injEq] at hbare
  rw [hbare, hlexemes'] at hlexemes
  cases hlexemes

end MiniPL
