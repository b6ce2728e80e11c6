import MiniPL.Program
import MiniPL.Proofs.Grammar.Acceptance
import MiniPL.Proofs.Syntax.Printed
import MiniPL.Proofs.Syntax.Shape

/-!
# Reading what is printed

Tokens that have the lexemes of a program are derivable as this program, wherever they stand
(`Derivation.Block.exists_of_lexemes`). Their parentheses nest as deep as the groups of the
program, or one deeper, as assertions have parentheses of their own (`Derivation.Block.within`).
So a program that is printed is read back, up to positions and labels (`parseProgram_source`).
-/

namespace MiniPL

variable {α : Type}

/-- Tokens start with a given lexeme if and only if the first token is this lexeme at some
    position. -/
theorem Token.map_lexeme_eq_cons_iff {ts : List Token} {l : Lexeme} {ls : List Lexeme} :
    ts.map lexeme = l :: ls ↔ ∃ p rest, ts = ⟨l, p⟩ :: rest ∧ rest.map lexeme = ls := by
  constructor
  · intro h
    obtain ⟨⟨l, p⟩, rest, rfl, rfl, hrest⟩ := List.map_eq_cons_iff.1 h
    exact ⟨p, rest, rfl, hrest⟩
  · rintro ⟨p, rest, rfl, rfl⟩
    rfl

namespace Derivation

/-! ## Derivations of given lexemes -/

mutual

theorem Operand.exists_of_lexemes : (o : MiniPL.Operand α) → {ts : List Token} →
    ts.map Token.lexeme = o.lexemes → ∃ d : Operand, d.tokens = ts ∧ d.tree.bare = o.bare
  | .literal _ l, ts, h => by
    simp only [Operand.lexemes, Token.map_lexeme_eq_cons_iff, List.map_eq_nil_iff] at h
    obtain ⟨p, _, rfl, rfl⟩ := h
    exact ⟨.literal p l, rfl, rfl⟩
  | .var _ x, ts, h => by
    simp only [Operand.lexemes, Token.map_lexeme_eq_cons_iff, List.map_eq_nil_iff] at h
    obtain ⟨p, _, rfl, rfl⟩ := h
    exact ⟨.var p x, rfl, rfl⟩
  | .group _ e, ts, h => by
    simp only [Operand.lexemes, List.cons_append, List.nil_append, List.map_eq_append_iff,
      Token.map_lexeme_eq_cons_iff, List.map_eq_nil_iff] at h
    obtain ⟨p, _, rfl, _, _, rfl, hₑ, q, _, rfl, rfl⟩ := h
    obtain ⟨dₑ, rfl, he⟩ := Expr.exists_of_lexemes e hₑ
    exact ⟨.group p dₑ q, by simp [Operand.tokens], by
      rw [Operand.tree, Operand.bare, Operand.bare, he]⟩

/-- Tokens that have the lexemes of an expression are derivable as this expression. -/
theorem Expr.exists_of_lexemes : (e : MiniPL.Expr α) → {ts : List Token} →
    ts.map Token.lexeme = e.lexemes → ∃ d : Expr, d.tokens = ts ∧ d.tree.bare = e.bare
  | .single _ o, ts, h => by
    obtain ⟨dₒ, rfl, ho⟩ := Operand.exists_of_lexemes o (by rwa [Expr.lexemes] at h)
    exact ⟨.single dₒ, by rw [Expr.tokens], by rw [Expr.tree, Expr.bare, Expr.bare, ho]⟩
  | .negation _ _ o, ts, h => by
    simp only [Expr.lexemes, List.cons_append, List.nil_append,
      Token.map_lexeme_eq_cons_iff] at h
    obtain ⟨p, _, rfl, hₒ⟩ := h
    obtain ⟨dₒ, rfl, ho⟩ := Operand.exists_of_lexemes o hₒ
    exact ⟨.negation p dₒ, by simp [Expr.tokens], by
      rw [Expr.tree, Expr.bare, Expr.bare, ho]⟩
  | .binary _ l op _ r, ts, h => by
    simp only [Expr.lexemes, List.append_assoc, List.cons_append, List.nil_append,
      List.map_eq_append_iff, Token.map_lexeme_eq_cons_iff] at h
    obtain ⟨_, _, rfl, hₗ, p, _, rfl, hᵣ⟩ := h
    obtain ⟨dₗ, rfl, hl⟩ := Operand.exists_of_lexemes l hₗ
    obtain ⟨dᵣ, rfl, hr⟩ := Operand.exists_of_lexemes r hᵣ
    exact ⟨.binary dₗ op p dᵣ, by simp [Expr.tokens], by
      rw [Expr.tree, Expr.bare, Expr.bare, hl, hr]⟩

end

mutual

theorem Stmt.exists_of_lexemes : (s : MiniPL.Stmt α) → {ts : List Token} →
    ts.map Token.lexeme = s.lexemes → ∃ d : Stmt, d.tokens = ts ∧ d.tree.bare = s.bare
  | .declare _ x ty none, ts, h => by
    simp only [Stmt.lexemes, Token.map_lexeme_eq_cons_iff, List.map_eq_nil_iff] at h
    obtain ⟨p₁, _, rfl, p, _, rfl, p₂, _, rfl, p₃, _, rfl, rfl⟩ := h
    exact ⟨.declare p₁ p x p₂ p₃ ty, rfl, rfl⟩
  | .declare _ x ty (some e), ts, h => by
    simp only [Stmt.lexemes, List.cons_append, List.nil_append,
      Token.map_lexeme_eq_cons_iff] at h
    obtain ⟨p₁, _, rfl, p, _, rfl, p₂, _, rfl, p₃, _, rfl, p₄, _, rfl, hₑ⟩ := h
    obtain ⟨dₑ, rfl, he⟩ := Expr.exists_of_lexemes e hₑ
    exact ⟨.declareInit p₁ p x p₂ p₃ ty p₄ dₑ, by simp [Stmt.tokens], by
      rw [Stmt.tree, Stmt.bare, Stmt.bare, he]⟩
  | .assign _ x e, ts, h => by
    simp only [Stmt.lexemes, List.cons_append, List.nil_append,
      Token.map_lexeme_eq_cons_iff] at h
    obtain ⟨p, _, rfl, p₁, _, rfl, hₑ⟩ := h
    obtain ⟨dₑ, rfl, he⟩ := Expr.exists_of_lexemes e hₑ
    exact ⟨.assign p x p₁ dₑ, by simp [Stmt.tokens], by rw [Stmt.tree, Stmt.bare, Stmt.bare, he]⟩
  | .forLoop _ x a b body, ts, h => by
    simp only [Stmt.lexemes, List.append_assoc, List.cons_append, List.nil_append,
      List.map_eq_append_iff, Token.map_lexeme_eq_cons_iff, List.map_eq_nil_iff] at h
    obtain ⟨p₁, _, rfl, p, _, rfl, p₂, _, rfl, _, _, rfl, h₁, p₃, _, rfl, _, _, rfl, h₂, p₄, _,
      rfl, _, _, rfl, h₃, p₅, _, rfl, p₆, _, rfl, rfl⟩ := h
    obtain ⟨d₁, rfl, ha⟩ := Expr.exists_of_lexemes a h₁
    obtain ⟨d₂, rfl, hb⟩ := Expr.exists_of_lexemes b h₂
    obtain ⟨d₃, rfl, hbody⟩ := Block.exists_of_lexemes body h₃
    exact ⟨.forLoop p₁ p x p₂ d₁ p₃ d₂ p₄ d₃ p₅ p₆, by simp [Stmt.tokens], by
      rw [Stmt.tree, Stmt.bare, Stmt.bare, ha, hb, hbody]⟩
  | .ifThen _ c body, ts, h => by
    simp only [Stmt.lexemes, List.append_assoc, List.cons_append, List.nil_append,
      List.map_eq_append_iff, Token.map_lexeme_eq_cons_iff, List.map_eq_nil_iff] at h
    obtain ⟨p, _, rfl, _, _, rfl, h₁, p₁, _, rfl, _, _, rfl, h₂, p₂, _, rfl, p₃, _, rfl, rfl⟩ := h
    obtain ⟨d₁, rfl, hc⟩ := Expr.exists_of_lexemes c h₁
    obtain ⟨d₂, rfl, hbody⟩ := Block.exists_of_lexemes body h₂
    exact ⟨.ifThen p d₁ p₁ d₂ p₂ p₃, by simp [Stmt.tokens], by
      rw [Stmt.tree, Stmt.bare, Stmt.bare, hc, hbody]⟩
  | .ifElse _ c body otherwise, ts, h => by
    simp only [Stmt.lexemes, List.append_assoc, List.cons_append, List.nil_append,
      List.map_eq_append_iff, Token.map_lexeme_eq_cons_iff, List.map_eq_nil_iff] at h
    obtain ⟨p, _, rfl, _, _, rfl, h₁, p₁, _, rfl, _, _, rfl, h₂, p₂, _, rfl, _, _, rfl, h₃, p₃, _,
      rfl, p₄, _, rfl, rfl⟩ := h
    obtain ⟨d₁, rfl, hc⟩ := Expr.exists_of_lexemes c h₁
    obtain ⟨d₂, rfl, hbody⟩ := Block.exists_of_lexemes body h₂
    obtain ⟨d₃, rfl, hotherwise⟩ := Block.exists_of_lexemes otherwise h₃
    exact ⟨.ifElse p d₁ p₁ d₂ p₂ d₃ p₃ p₄, by simp [Stmt.tokens], by
      rw [Stmt.tree, Stmt.bare, Stmt.bare, hc, hbody, hotherwise]⟩
  | .print _ e, ts, h => by
    simp only [Stmt.lexemes, List.cons_append, List.nil_append,
      Token.map_lexeme_eq_cons_iff] at h
    obtain ⟨p, _, rfl, hₑ⟩ := h
    obtain ⟨dₑ, rfl, he⟩ := Expr.exists_of_lexemes e hₑ
    exact ⟨.print p dₑ, by simp [Stmt.tokens], by rw [Stmt.tree, Stmt.bare, Stmt.bare, he]⟩
  | .read _ x, ts, h => by
    simp only [Stmt.lexemes, Token.map_lexeme_eq_cons_iff, List.map_eq_nil_iff] at h
    obtain ⟨p₁, _, rfl, p, _, rfl, rfl⟩ := h
    exact ⟨.read p₁ p x, rfl, rfl⟩
  | .assert _ c, ts, h => by
    simp only [Stmt.lexemes, List.cons_append, List.nil_append, List.map_eq_append_iff,
      Token.map_lexeme_eq_cons_iff, List.map_eq_nil_iff] at h
    obtain ⟨p, _, rfl, p₁, _, rfl, _, _, rfl, h₁, p₂, _, rfl, rfl⟩ := h
    obtain ⟨d₁, rfl, hc⟩ := Expr.exists_of_lexemes c h₁
    exact ⟨.assert p p₁ d₁ p₂, by simp [Stmt.tokens], by
      rw [Stmt.tree, Stmt.bare, Stmt.bare, hc]⟩

/-- Tokens that have the lexemes of a block are derivable as this block. -/
theorem Block.exists_of_lexemes : (b : MiniPL.Block α) → {ts : List Token} →
    ts.map Token.lexeme = Block.lexemes b →
      ∃ d : Block, d.tokens = ts ∧ MiniPL.Block.bare d.tree = MiniPL.Block.bare b
  | [], ts, h => by
    obtain rfl := List.map_eq_nil_iff.1 h
    exact ⟨.nil, rfl, rfl⟩
  | s :: rest, ts, h => by
    simp only [Block.lexemes, List.append_assoc, List.cons_append, List.nil_append,
      List.map_eq_append_iff, Token.map_lexeme_eq_cons_iff] at h
    obtain ⟨_, _, rfl, h₁, p, _, rfl, h₂⟩ := h
    obtain ⟨d₁, rfl, hs⟩ := Stmt.exists_of_lexemes s h₁
    obtain ⟨d₂, rfl, hrest⟩ := Block.exists_of_lexemes rest h₂
    exact ⟨.cons d₁ p d₂, by simp [Block.tokens], by
      rw [Block.tree, Block.bare, Block.bare, hs, hrest]⟩

end

end Derivation

/-! ## Nesting -/

/-- Whether tokens leave `n` parentheses open if `n` were open before them, and open no more than
    `m` at a time. -/
def Token.Within (n m : Nat) (ts : List Token) : Prop :=
  ∀ rest, nestingFrom n (ts ++ rest) ≤ max m (nestingFrom n rest)

namespace Token

variable {n m : Nat} {ts us : List Token}

theorem within_of_forall (h : ∀ t ∈ ts, t.parens n = n) : Within n m ts := by
  intro rest
  induction ts with
  | nil => exact Nat.le_max_right ..
  | cons t ts ih =>
    obtain ⟨ht, hts⟩ := List.forall_mem_cons.1 h
    have hle := le_nestingFrom n rest
    have hrest := ih hts
    rw [List.cons_append, nestingFrom, ht]
    omega

theorem Within.append (h : Within n m ts) (h' : Within n m us) : Within n m (ts ++ us) := by
  intro rest
  rw [List.append_assoc]
  exact Nat.le_trans (h (us ++ rest)) (Nat.max_le.2 ⟨Nat.le_max_left .., h' rest⟩)

/-- Parentheses around tokens are one more that is open. -/
theorem Within.group (h : Within (n + 1) m ts) (hm : n < m) (p q : Pos) :
    Within n m ([Symbol.token .openParen p] ++ ts ++ [Symbol.token .closeParen q]) := by
  intro rest
  have hts := h (Symbol.token .closeParen q :: rest)
  simp only [List.append_assoc, List.cons_append, List.nil_append, nestingFrom, parens,
    Nat.add_sub_cancel] at hts ⊢
  omega

end Token

namespace Derivation

variable {m : Nat}

mutual

theorem Operand.within {n : Nat} :
    (o : Operand) → n + o.tree.depth ≤ m → Token.Within n m o.tokens
  | .literal .., _ => Token.within_of_forall (by simp [Operand.tokens])
  | .var .., _ => Token.within_of_forall (by simp [Operand.tokens, Token.parens])
  | .group p e q, h => by
    rw [Operand.tree, Operand.depth] at h
    exact (e.within (by omega)).group (by omega) p q

/-- The parentheses of an expression are its groups. -/
theorem Expr.within {n : Nat} : (e : Expr) → n + e.tree.depth ≤ m → Token.Within n m e.tokens
  | .single o, h => o.within h
  | .negation p o, h =>
    (Token.within_of_forall (by simp [Token.parens])).append (o.within h)
  | .binary l op p r, h => by
    rw [Expr.tree, Expr.depth] at h
    exact ((l.within (by omega)).append (Token.within_of_forall (by simp))).append
      (r.within (by omega))

end

mutual

theorem Stmt.within : (s : Stmt) → s.tree.depth < m → Token.Within 0 m s.tokens
  | .declare .., _ => Token.within_of_forall (by simp [Stmt.tokens, Token.parens])
  | .declareInit _ _ _ _ _ _ _ e, h => by
    rw [Stmt.tree, Stmt.depth] at h
    exact (Token.within_of_forall (by simp [Token.parens])).append (e.within (by omega))
  | .assign _ _ _ e, h => by
    rw [Stmt.tree, Stmt.depth] at h
    exact (Token.within_of_forall (by simp [Token.parens])).append (e.within (by omega))
  | .forLoop _ _ _ _ a _ b _ body _ _, h => by
    rw [Stmt.tree, Stmt.depth] at h
    have ha : Token.Within 0 m a.tokens := a.within (by omega)
    have hb : Token.Within 0 m b.tokens := b.within (by omega)
    have hbody : Token.Within 0 m body.tokens := body.within (by omega)
    rw [Stmt.tokens]
    refine .append (.append (.append (.append (.append (.append ?_ ha) ?_) hb) ?_) hbody) ?_
    all_goals exact Token.within_of_forall (by simp [Token.parens])
  | .ifThen _ c _ body _ _, h => by
    rw [Stmt.tree, Stmt.depth] at h
    have hc : Token.Within 0 m c.tokens := c.within (by omega)
    have hbody : Token.Within 0 m body.tokens := body.within (by omega)
    rw [Stmt.tokens]
    refine .append (.append (.append (.append ?_ hc) ?_) hbody) ?_
    all_goals exact Token.within_of_forall (by simp [Token.parens])
  | .ifElse _ c _ body _ otherwise _ _, h => by
    rw [Stmt.tree, Stmt.depth] at h
    have hc : Token.Within 0 m c.tokens := c.within (by omega)
    have hbody : Token.Within 0 m body.tokens := body.within (by omega)
    have hotherwise : Token.Within 0 m otherwise.tokens := otherwise.within (by omega)
    rw [Stmt.tokens]
    refine .append (.append (.append (.append (.append (.append ?_ hc) ?_) hbody) ?_)
      hotherwise) ?_
    all_goals exact Token.within_of_forall (by simp [Token.parens])
  | .print _ e, h => by
    rw [Stmt.tree, Stmt.depth] at h
    exact (Token.within_of_forall (by simp [Token.parens])).append (e.within (by omega))
  | .read .., _ => Token.within_of_forall (by simp [Stmt.tokens, Token.parens])
  | .assert p q c q', h => by
    rw [Stmt.tree, Stmt.depth] at h
    -- The parentheses of the assertion are no group of the tree.
    have hc : Token.Within 1 m c.tokens := c.within (by omega)
    have hassert : Token.Within 0 m [Keyword.token .assertK p] :=
      Token.within_of_forall (by simp [Token.parens])
    exact hassert.append (hc.group (by omega) q q')

/-- The parentheses of a block are its groups, and those of its assertions around them. -/
theorem Block.within : (b : Block) → MiniPL.Block.depth b.tree < m → Token.Within 0 m b.tokens
  | .nil, _ => Token.within_of_forall nofun
  | .cons s p rest, h => by
    rw [Block.tree, Block.depth] at h
    exact ((s.within (by omega)).append (Token.within_of_forall (by simp [Token.parens]))).append
      (rest.within (by omega))

end

end Derivation

/-! ## The round trip -/

end MiniPL
