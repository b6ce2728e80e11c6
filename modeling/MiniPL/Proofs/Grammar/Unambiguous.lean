import MiniPL.Proofs.Grammar.Derivation

/-!
# Derivations are unique

The grammar is unambiguous: no two derivations of programs have the same tokens
(`Derivation.Block.eq_of_tokens_eq`). More is true, so that this goes by induction: if tokens
start with those of an operand, they do so with those of no other operand; and the same holds of
expressions that have no operator after them, of statements that have a semicolon after them,
and of blocks that are at an end.
-/

namespace MiniPL

theorem Literal.eq_of_lexeme_eq {l l' : Literal} (h : l.lexeme = l'.lexeme) : l = l' := by
  cases l <;> cases l' <;> cases h <;> rfl

theorem BinOp.eq_of_symbol_eq {op op' : BinOp} (h : op.symbol = op'.symbol) : op = op' := by
  have h₁ : op.symbol.binOp? = some op := Symbol.binOp?_eq_some_iff.2 rfl
  have h₂ : op.symbol.binOp? = some op' := Symbol.binOp?_eq_some_iff.2 h.symm
  exact Option.some.inj (h₁.symm.trans h₂)

theorem Ty.eq_of_keyword_eq {ty ty' : Ty} (h : ty.keyword = ty'.keyword) : ty = ty' := by
  cases ty <;> cases ty' <;> cases h <;> rfl

namespace Derivation

/-- An operand does not start like a negation. -/
theorem Operand.tokens_append_ne (o : Operand) (p : Pos) (r r' : List Token) :
    o.tokens ++ r ≠ Symbol.token .bang p :: r' := by
  rcases o with ⟨_, l | l⟩ | _ | _ <;> nofun

/-- What is no operator is not the token of one. -/
theorem ne_of_binOp?_eq_none {t : Token} (ht : t.lexeme.binOp? = none) (op : BinOp) (p : Pos) :
    t ≠ op.symbol.token p := by
  rintro rfl
  cases op <;> cases ht

mutual

theorem Operand.eq_of_append : (o o' : Operand) → {r r' : List Token} →
    o.tokens ++ r = o'.tokens ++ r' → o = o' ∧ r = r'
  | .literal p l, .literal p' l', r, r', h => by
    obtain ⟨ht, hr⟩ := List.cons.inj h
    obtain ⟨hl, rfl⟩ := Token.mk.inj ht
    exact ⟨by rw [Literal.eq_of_lexeme_eq hl], hr⟩
  | .literal _ l, .var .., _, _, h => by cases l <;> cases h
  | .literal _ l, .group .., _, _, h => by
    cases l <;> exact absurd (List.cons.inj h).1 nofun
  | .var .., .literal _ l, _, _, h => by cases l <;> cases h
  | .var p x, .var p' x', r, r', h => by
    cases h
    exact ⟨rfl, rfl⟩
  | .var .., .group .., _, _, h => absurd (List.cons.inj h).1 nofun
  | .group .., .literal _ l, _, _, h => by
    cases l <;> exact absurd (List.cons.inj h).1 nofun
  | .group .., .var .., _, _, h => absurd (List.cons.inj h).1 nofun
  | .group p e q, .group p' e' q', r, r', h => by
    simp only [Operand.tokens, List.append_assoc, List.cons_append] at h
    obtain ⟨hp, h⟩ := List.cons.inj h
    obtain ⟨he, hr⟩ := Expr.eq_of_append e e' (by rfl) (by rfl) h
    obtain ⟨hq, hr⟩ := List.cons.inj hr
    rw [he, (Token.mk.inj hp).2, (Token.mk.inj hq).2]
    exact ⟨rfl, hr⟩

theorem Expr.eq_of_append : (e e' : Expr) → {t t' : Token} → {r r' : List Token} →
    t.lexeme.binOp? = none → t'.lexeme.binOp? = none →
    e.tokens ++ t :: r = e'.tokens ++ t' :: r' → e = e' ∧ t :: r = t' :: r'
  | .single o, .single o', _, _, _, _, _, _, h => by
    obtain ⟨ho, hr⟩ := Operand.eq_of_append o o' h
    exact ⟨congrArg _ ho, hr⟩
  | .single o, .negation p o', _, _, _, _, _, _, h => absurd h (o.tokens_append_ne _ _ _)
  | .single o, .binary l op p r, _, _, _, _, ht, _, h => by
    -- The operator would be the token after the first expression.
    simp only [Expr.tokens, List.append_assoc, List.singleton_append] at h
    obtain ⟨-, hr⟩ := Operand.eq_of_append o l h
    exact absurd (List.cons.inj hr).1 (ne_of_binOp?_eq_none ht op p)
  | .negation p o, .single o', _, _, _, _, _, _, h => absurd h.symm (o'.tokens_append_ne _ _ _)
  | .negation p o, .negation p' o', _, _, _, _, _, _, h => by
    obtain ⟨hp, h⟩ := List.cons.inj h
    obtain ⟨ho, hr⟩ := Operand.eq_of_append o o' h
    rw [ho, (Token.mk.inj hp).2]
    exact ⟨rfl, hr⟩
  | .negation p o, .binary l op p' r, _, _, _, _, _, _, h => by
    simp only [Expr.tokens, List.append_assoc, List.singleton_append] at h
    exact absurd h.symm (l.tokens_append_ne _ _ _)
  | .binary l op p r, .single o, _, _, _, _, _, ht, h => by
    simp only [Expr.tokens, List.append_assoc, List.singleton_append] at h
    obtain ⟨-, hr⟩ := Operand.eq_of_append l o h
    exact absurd (List.cons.inj hr).1.symm (ne_of_binOp?_eq_none ht op p)
  | .binary l op p r, .negation p' o, _, _, _, _, _, _, h => by
    simp only [Expr.tokens, List.append_assoc, List.singleton_append] at h
    exact absurd h (l.tokens_append_ne _ _ _)
  | .binary l op p r, .binary l' op' p' r', _, _, _, _, _, _, h => by
    simp only [Expr.tokens, List.append_assoc, List.cons_append] at h
    obtain ⟨hl, h⟩ := Operand.eq_of_append l l' h
    obtain ⟨hop, h⟩ := List.cons.inj h
    obtain ⟨hr, hrest⟩ := Operand.eq_of_append r r' h
    obtain ⟨hs, hp⟩ := Token.mk.inj hop
    rw [hl, hr, hp, BinOp.eq_of_symbol_eq (Lexeme.symbol.inj hs)]
    exact ⟨rfl, hrest⟩

end

/-- The tokens are none, or start like the end of a block. -/
def AtEnd (r : List Token) : Prop :=
  ∀ t ∈ r.head?, t.lexeme = .keyword .endK ∨ t.lexeme = .keyword .elseK

/-- A statement does not start at the end of a block. -/
theorem Stmt.tokens_append_ne (s : Stmt) {r : List Token} (hr : AtEnd r) (u : List Token) :
    r ≠ s.tokens ++ u := by
  rintro rfl
  obtain ⟨t, ts, h, h₁, h₂⟩ := s.exists_cons_tokens
  rcases hr t (by rw [h]; rfl) with ht | ht
  · exact h₁ ht
  · exact h₂ ht

theorem atEnd_end {q : Pos} {r : List Token} : AtEnd (Keyword.token .endK q :: r) := by
  rintro t ⟨⟩
  exact Or.inl rfl

theorem atEnd_else {q : Pos} {r : List Token} : AtEnd (Keyword.token .elseK q :: r) := by
  rintro t ⟨⟩
  exact Or.inr rfl

mutual

theorem Stmt.eq_of_append : (s s' : Stmt) → {q q' : Pos} → {r r' : List Token} →
    s.tokens ++ Symbol.token .semicolon q :: r = s'.tokens ++ Symbol.token .semicolon q' :: r' →
    s = s' ∧ q = q' ∧ r = r'
  | .declare p₁ p x p₂ p₃ ty, s', q, q', r, r', h => by
    cases s' with
    | declare p₁' p' x' p₂' p₃' ty' =>
      simp only [Stmt.tokens, List.cons_append, List.nil_append, List.cons.injEq,
        Token.mk.injEq, Lexeme.name.injEq, Lexeme.keyword.injEq] at h
      obtain ⟨⟨-, rfl⟩, ⟨rfl, rfl⟩, ⟨-, rfl⟩, ⟨hty, rfl⟩, ⟨-, hq⟩, hr⟩ := h
      rw [Ty.eq_of_keyword_eq hty]
      exact ⟨rfl, hq, hr⟩
    | declareInit => simp [Stmt.tokens] at h
    | _ => exact absurd (List.cons.inj h).1 nofun
  | .declareInit p₁ p x p₂ p₃ ty p₄ e, s', q, q', r, r', h => by
    cases s' with
    | declare => simp [Stmt.tokens] at h
    | declareInit p₁' p' x' p₂' p₃' ty' p₄' e' =>
      simp only [Stmt.tokens, List.cons_append, List.nil_append, List.cons.injEq,
        Token.mk.injEq, Lexeme.name.injEq, Lexeme.keyword.injEq] at h
      obtain ⟨⟨-, rfl⟩, ⟨rfl, rfl⟩, ⟨-, rfl⟩, ⟨hty, rfl⟩, ⟨-, rfl⟩, h⟩ := h
      obtain ⟨he, h⟩ := Expr.eq_of_append e e' (by rfl) (by rfl) h
      obtain ⟨hq, hr⟩ := List.cons.inj h
      rw [Ty.eq_of_keyword_eq hty, he]
      exact ⟨rfl, (Token.mk.inj hq).2, hr⟩
    | _ => exact absurd (List.cons.inj h).1 nofun
  | .assign p x p₁ e, s', q, q', r, r', h => by
    cases s' with
    | assign p' x' p₁' e' =>
      simp only [Stmt.tokens, List.cons_append, List.nil_append, List.cons.injEq,
        Token.mk.injEq, Lexeme.name.injEq] at h
      obtain ⟨⟨rfl, rfl⟩, ⟨-, rfl⟩, h⟩ := h
      obtain ⟨he, h⟩ := Expr.eq_of_append e e' (by rfl) (by rfl) h
      obtain ⟨hq, hr⟩ := List.cons.inj h
      rw [he]
      exact ⟨rfl, (Token.mk.inj hq).2, hr⟩
    | _ => exact absurd (List.cons.inj h).1 nofun
  | .forLoop p₁ p x p₂ a p₃ b p₄ body p₅ p₆, s', q, q', r, r', h => by
    cases s' with
    | forLoop p₁' p' x' p₂' a' p₃' b' p₄' body' p₅' p₆' =>
      -- Each part ends where it must, at the token that follows it in the rule.
      simp only [Stmt.tokens, List.append_assoc, List.cons_append, List.nil_append,
        List.cons.injEq, Token.mk.injEq, Lexeme.name.injEq] at h
      obtain ⟨⟨-, rfl⟩, ⟨rfl, rfl⟩, ⟨-, rfl⟩, h⟩ := h
      obtain ⟨ha, h⟩ := Expr.eq_of_append a a' (by rfl) (by rfl) h
      obtain ⟨hp₃, h⟩ := List.cons.inj h
      obtain ⟨hb, h⟩ := Expr.eq_of_append b b' (by rfl) (by rfl) h
      obtain ⟨hp₄, h⟩ := List.cons.inj h
      obtain ⟨hbody, h⟩ := Block.eq_of_append body body' atEnd_end atEnd_end h
      simp only [List.cons.injEq, Token.mk.injEq] at h hp₃ hp₄
      obtain ⟨⟨-, rfl⟩, ⟨-, rfl⟩, ⟨-, hq⟩, hr⟩ := h
      rw [ha, hb, hbody, hp₃.2, hp₄.2]
      exact ⟨rfl, hq, hr⟩
    | _ => exact absurd (List.cons.inj h).1 nofun
  | .ifThen p c p₁ body p₂ p₃, s', q, q', r, r', h => by
    cases s' with
    | ifThen p' c' p₁' body' p₂' p₃' =>
      simp only [Stmt.tokens, List.append_assoc, List.cons_append, List.nil_append,
        List.cons.injEq, Token.mk.injEq] at h
      obtain ⟨⟨-, rfl⟩, h⟩ := h
      obtain ⟨hc, h⟩ := Expr.eq_of_append c c' (by rfl) (by rfl) h
      obtain ⟨hp₁, h⟩ := List.cons.inj h
      obtain ⟨hbody, h⟩ := Block.eq_of_append body body' atEnd_end atEnd_end h
      simp only [List.cons.injEq, Token.mk.injEq] at h hp₁
      obtain ⟨⟨-, rfl⟩, ⟨-, rfl⟩, ⟨-, hq⟩, hr⟩ := h
      rw [hc, hbody, hp₁.2]
      exact ⟨rfl, hq, hr⟩
    | ifElse p' c' p₁' body' p₂' otherwise' p₃' p₄' =>
      -- The first block is followed by another one here, and by its end there.
      simp only [Stmt.tokens, List.append_assoc, List.cons_append, List.nil_append,
        List.cons.injEq, Token.mk.injEq] at h
      obtain ⟨-, h⟩ := Expr.eq_of_append c c' (by rfl) (by rfl) h.2
      obtain ⟨-, h⟩ := List.cons.inj h
      obtain ⟨-, h⟩ := Block.eq_of_append body body' atEnd_end atEnd_else h
      exact absurd (List.cons.inj h).1 nofun
    | _ => exact absurd (List.cons.inj h).1 nofun
  | .ifElse p c p₁ body p₂ otherwise p₃ p₄, s', q, q', r, r', h => by
    cases s' with
    | ifThen p' c' p₁' body' p₂' p₃' =>
      simp only [Stmt.tokens, List.append_assoc, List.cons_append, List.nil_append,
        List.cons.injEq, Token.mk.injEq] at h
      obtain ⟨-, h⟩ := Expr.eq_of_append c c' (by rfl) (by rfl) h.2
      obtain ⟨-, h⟩ := List.cons.inj h
      obtain ⟨-, h⟩ := Block.eq_of_append body body' atEnd_else atEnd_end h
      exact absurd (List.cons.inj h).1 nofun
    | ifElse p' c' p₁' body' p₂' otherwise' p₃' p₄' =>
      simp only [Stmt.tokens, List.append_assoc, List.cons_append, List.nil_append,
        List.cons.injEq, Token.mk.injEq] at h
      obtain ⟨⟨-, rfl⟩, h⟩ := h
      obtain ⟨hc, h⟩ := Expr.eq_of_append c c' (by rfl) (by rfl) h
      obtain ⟨hp₁, h⟩ := List.cons.inj h
      obtain ⟨hbody, h⟩ := Block.eq_of_append body body' atEnd_else atEnd_else h
      obtain ⟨hp₂, h⟩ := List.cons.inj h
      obtain ⟨hother, h⟩ :=
        Block.eq_of_append otherwise otherwise' atEnd_end atEnd_end h
      simp only [List.cons.injEq, Token.mk.injEq] at h hp₁ hp₂
      obtain ⟨⟨-, rfl⟩, ⟨-, rfl⟩, ⟨-, hq⟩, hr⟩ := h
      rw [hc, hbody, hother, hp₁.2, hp₂.2]
      exact ⟨rfl, hq, hr⟩
    | _ => exact absurd (List.cons.inj h).1 nofun
  | .print p e, s', q, q', r, r', h => by
    cases s' with
    | print p' e' =>
      simp only [Stmt.tokens, List.cons_append, List.nil_append, List.cons.injEq,
        Token.mk.injEq] at h
      obtain ⟨⟨-, rfl⟩, h⟩ := h
      obtain ⟨he, h⟩ := Expr.eq_of_append e e' (by rfl) (by rfl) h
      obtain ⟨hq, hr⟩ := List.cons.inj h
      rw [he]
      exact ⟨rfl, (Token.mk.inj hq).2, hr⟩
    | _ => exact absurd (List.cons.inj h).1 nofun
  | .read p₁ p x, s', q, q', r, r', h => by
    cases s' with
    | read p₁' p' x' =>
      simp only [Stmt.tokens, List.cons_append, List.nil_append, List.cons.injEq,
        Token.mk.injEq, Lexeme.name.injEq] at h
      obtain ⟨⟨-, rfl⟩, ⟨rfl, rfl⟩, ⟨-, hq⟩, hr⟩ := h
      exact ⟨rfl, hq, hr⟩
    | _ => exact absurd (List.cons.inj h).1 nofun
  | .assert p p₁ c p₂, s', q, q', r, r', h => by
    cases s' with
    | assert p' p₁' c' p₂' =>
      simp only [Stmt.tokens, List.append_assoc, List.cons_append, List.nil_append,
        List.cons.injEq, Token.mk.injEq] at h
      obtain ⟨⟨-, rfl⟩, ⟨-, rfl⟩, h⟩ := h
      obtain ⟨hc, h⟩ := Expr.eq_of_append c c' (by rfl) (by rfl) h
      simp only [List.cons.injEq, Token.mk.injEq] at h
      obtain ⟨⟨-, rfl⟩, ⟨-, hq⟩, hr⟩ := h
      rw [hc]
      exact ⟨rfl, hq, hr⟩
    | _ => exact absurd (List.cons.inj h).1 nofun

theorem Block.eq_of_append : (b b' : Block) → {r r' : List Token} → AtEnd r → AtEnd r' →
    b.tokens ++ r = b'.tokens ++ r' → b = b' ∧ r = r'
  | .nil, .nil, _, _, _, _, h => ⟨rfl, h⟩
  | .nil, .cons s p rest, _, _, hr, _, h => by
    -- One block is at its end where the other one has a statement.
    simp only [Block.tokens, List.append_assoc] at h
    exact absurd h (s.tokens_append_ne hr _)
  | .cons s p rest, .nil, _, _, _, hr, h => by
    simp only [Block.tokens, List.append_assoc] at h
    exact absurd h.symm (s.tokens_append_ne hr _)
  | .cons s p rest, .cons s' p' rest', _, _, hr, hr', h => by
    simp only [Block.tokens, List.append_assoc, List.singleton_append] at h
    obtain ⟨hs, hp, h⟩ := Stmt.eq_of_append s s' h
    obtain ⟨hb, h⟩ := Block.eq_of_append rest rest' hr hr' h
    rw [hs, hp, hb]
    exact ⟨rfl, h⟩

end

/-- No two programs have the same tokens. -/
theorem Block.eq_of_tokens_eq {d d' : Block} (h : d.tokens = d'.tokens) : d = d' := by
  have hnil : AtEnd [] := nofun
  refine (Block.eq_of_append d d' hnil hnil ?_).1
  rw [List.append_nil, List.append_nil, h]

end Derivation

end MiniPL
