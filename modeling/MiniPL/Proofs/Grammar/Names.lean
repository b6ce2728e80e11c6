import MiniPL.Proofs.Grammar.Acceptance
import MiniPL.Proofs.Grammar.Breaks
import MiniPL.Proofs.Syntax.Parts

/-!
# The names in a program

The names in a tree are those of the tokens that it is derived from, in the same order
(`Derivation.Block.names_tree`). So a program that is accepted has the names of its tokens
(`Stream.names_of_parse`), and so has a lone expression (`Stream.names_of_parseExpr`), which is an
expression with a semicolon after it at most (`Stream.exists_alone_of_parseExpr`).
-/

namespace MiniPL

/-- The name that a lexeme is, if it is one. -/
def Lexeme.name? : Lexeme → Option String
  | name x => some x
  | _ => none

/-- The names among tokens. -/
def Token.names (ts : List Token) : List String := ts.filterMap (·.lexeme.name?)

namespace Token

@[simp] theorem names_append (ts us : List Token) : names (ts ++ us) = names ts ++ names us :=
  List.filterMap_append

@[simp] theorem names_nil : names [] = [] := rfl

@[simp] theorem names_ofName (x : String) (p : Pos) (ts : List Token) :
    names (.ofName x p :: ts) = x :: names ts := rfl

@[simp] theorem names_symbol (s : Symbol) (p : Pos) (ts : List Token) :
    names (s.token p :: ts) = names ts := rfl

@[simp] theorem names_keyword (k : Keyword) (p : Pos) (ts : List Token) :
    names (k.token p :: ts) = names ts := rfl

end Token

namespace Derivation

mutual

theorem Operand.names_tree : (d : Operand) → d.tree.names = Token.names d.tokens
  | .literal _ l => by cases l <;> rfl
  | .var .. => rfl
  | .group _ d _ => by
    simp [Operand.tree, Operand.tokens, MiniPL.Operand.names, d.names_tree]

/-- The names in an expression are those of its tokens. -/
theorem Expr.names_tree : (d : Expr) → d.tree.names = Token.names d.tokens
  | .single d => d.names_tree
  | .negation _ d => by simp [Expr.tree, Expr.tokens, MiniPL.Expr.names, d.names_tree]
  | .binary l _ _ r => by
    simp [Expr.tree, Expr.tokens, MiniPL.Expr.names, l.names_tree, r.names_tree]

end

mutual

theorem Stmt.names_tree : (d : Stmt) → d.tree.names = Token.names d.tokens
  | .declare .. => by simp [Stmt.tree, Stmt.tokens, MiniPL.Stmt.names]
  | .declareInit _ _ _ _ _ _ _ e => by
    simp [Stmt.tree, Stmt.tokens, MiniPL.Stmt.names, e.names_tree]
  | .assign _ _ _ e => by simp [Stmt.tree, Stmt.tokens, MiniPL.Stmt.names, e.names_tree]
  | .forLoop _ _ _ _ a _ b _ body _ _ => by
    simp [Stmt.tree, Stmt.tokens, MiniPL.Stmt.names, a.names_tree, b.names_tree, body.names_tree]
  | .ifThen _ c _ body _ _ => by
    simp [Stmt.tree, Stmt.tokens, MiniPL.Stmt.names, c.names_tree, body.names_tree]
  | .ifElse _ c _ body _ otherwise _ _ => by
    simp [Stmt.tree, Stmt.tokens, MiniPL.Stmt.names, c.names_tree, body.names_tree,
      otherwise.names_tree]
  | .print _ e => by simp [Stmt.tree, Stmt.tokens, MiniPL.Stmt.names, e.names_tree]
  | .read .. => by simp [Stmt.tree, Stmt.tokens, MiniPL.Stmt.names]
  | .assert _ _ c _ => by simp [Stmt.tree, Stmt.tokens, MiniPL.Stmt.names, c.names_tree]

/-- The names in a block are those of its tokens. -/
theorem Block.names_tree : (d : Block) → MiniPL.Block.names d.tree = Token.names d.tokens
  | .nil => rfl
  | .cons s _ rest => by
    simp [Block.tree, Block.tokens, MiniPL.Block.names, s.names_tree, rest.names_tree]

end

/-- The tokens are those of the expression, or there is a semicolon after them. -/
def Expr.Alone (e : Expr) (ts : List Token) : Prop :=
  ts = e.tokens ∨ ∃ q, ts = e.tokens ++ [Symbol.token .semicolon q]

theorem Expr.Alone.tokens_isPrefix {e : Expr} {ts : List Token} (h : e.Alone ts) :
    e.tokens <+: ts := by
  rcases h with rfl | ⟨q, rfl⟩
  · exact List.prefix_refl _
  · exact List.prefix_append ..

end Derivation

/-! ## What is accepted -/

namespace Reading

variable {α β : Type}

theorem exists_of_bind {x : Reading α} {f : α → Reading β} {r r' : Reader} {b : β}
    (h : (x >>= f) r = .read b r') : ∃ a s, x r = .read a s ∧ f a s = .read b r' := by
  rw [bind_apply] at h
  cases hx : x r with
  | read a s => exact ⟨a, s, rfl, by rwa [hx] at h⟩
  | refused fault s => rw [hx] at h; cases h
  | broken rejection => rw [hx] at h; cases h

theorem exists_of_atEnd {r r' : Reader} {a e : Expr Unit} (h : atEnd a r = .read e r') :
    a = e ∧ r.unread = [] ∧ ∃ p, r.ending = .eof p := by
  obtain ⟨item, s, hpeek, h⟩ := exists_of_bind h
  obtain ⟨last, _ | ⟨t, rest⟩, p | f⟩ := r <;> cases hpeek
  · cases h
    exact ⟨rfl, rfl, p, rfl⟩
  · cases h
  · cases h

/-- A lone expression is an expression before the end of a stream that has no fault, with a
    semicolon after it at most. -/
theorem exists_of_loneExpr {r r' : Reader} {e : Expr Unit} (h : loneExpr r = .read e r') :
    ∃ s p, expr r = .read e s ∧ r.ending = .eof p ∧
      (s.unread = [] ∨ ∃ q, s.unread = [Symbol.token .semicolon q]) := by
  rw [loneExpr_eq] at h
  obtain ⟨a, ⟨l, rest, ending⟩, hexpr, h⟩ := exists_of_bind h
  have hending : ending = r.ending := keeps_expr.read hexpr
  rcases rest with _ | ⟨t, rest⟩
  · obtain ⟨item, s, hpeek, h⟩ := exists_of_bind h
    rcases ending with p | f <;> cases hpeek
    have h : atEnd a ⟨l, [], .eof p⟩ = .read e r' := h
    obtain ⟨rfl, -⟩ := exists_of_atEnd h
    exact ⟨_, p, hexpr, hending.symm, .inl rfl⟩
  · change (if t.lexeme.kind = .symbol .semicolon then advance >>= fun _ => atEnd a
      else atEnd a) ⟨l, t :: rest, ending⟩ = .read e r' at h
    split at h
    · next hkind =>
      have hfirst : (Item.first (t :: rest) (.eof .start)).kind = .symbol .semicolon := hkind
      obtain ⟨q, rest', heq⟩ := Item.exists_semicolon hfirst
      obtain ⟨rfl, -⟩ := List.cons.inj heq
      obtain ⟨u, s, hadvance, h⟩ := exists_of_bind h
      obtain ⟨rfl, hnil, p, hp⟩ := exists_of_atEnd h
      have hs : s.ending = ending := keeps_advance.read hadvance
      rcases rest with _ | ⟨t', rest⟩
      · exact ⟨_, p, hexpr, hending.symm.trans (hs.symm.trans hp), .inr ⟨q, rfl⟩⟩
      · -- More than a semicolon is left.
        cases hadvance
        cases hnil
    · obtain ⟨-, hnil, -⟩ := exists_of_atEnd h
      cases hnil

end Reading

namespace Stream

/-- A stream with a fault is no program. -/
theorem exists_eof_of_parse {s : Stream} {b : Block Unit} (h : s.parse.result = .ok b) :
    ∃ ts p, s = ⟨ts, .eof p⟩ := by
  obtain ⟨ts, p | f⟩ := s
  · exact ⟨ts, p, rfl⟩
  · cases result_of_fault.symm.trans h

/-- A program has the names of its tokens. -/
theorem names_of_parse {s : Stream} {b : Block Unit} (h : s.parse.result = .ok b) :
    Block.names b = Token.names s.tokens := by
  obtain ⟨ts, p, rfl⟩ := exists_eof_of_parse h
  obtain ⟨d, rfl, rfl⟩ := exists_block_of_parse h
  exact d.names_tree

/-- What is parsed as a lone expression has been read as one. -/
theorem exists_of_result_parseExpr {s : Stream} {e : Expr Unit} (h : s.parseExpr.result = .ok e) :
    ∃ r, Reading.loneExpr (.ofStream s) = .read e r := by
  rw [parseExpr] at h
  cases hread : Reading.loneExpr (.ofStream s) with
  | read a r =>
    rw [hread] at h
    cases h
    exact ⟨r, rfl⟩
  | broken rejection =>
    rw [hread] at h
    cases h
  | refused f r =>
    simp only [hread] at h
    split at h
    · cases h
    · split at h <;> cases h

/-- A stream with a fault is no lone expression. -/
theorem exists_eof_of_parseExpr {s : Stream} {e : Expr Unit} (h : s.parseExpr.result = .ok e) :
    ∃ ts p, s = ⟨ts, .eof p⟩ := by
  obtain ⟨r, hread⟩ := exists_of_result_parseExpr h
  obtain ⟨-, p, -, hend, -⟩ := Reading.exists_of_loneExpr hread
  obtain ⟨ts, ending⟩ := s
  exact ⟨ts, p, congrArg (Stream.mk ts) hend⟩

/-- What is parsed as a lone expression is one. -/
theorem exists_alone_of_parseExpr {ts : List Token} {p : Pos} {e : Expr Unit}
    (h : (parseExpr ⟨ts, .eof p⟩).result = .ok e) :
    ∃ d : Derivation.Expr, d.Alone ts ∧ d.tree = e := by
  obtain ⟨r, hread⟩ := exists_of_result_parseExpr h
  obtain ⟨s, -, hexpr, -, hunread⟩ := Reading.exists_of_loneExpr hread
  -- What has been read until then is derived as the expression.
  obtain ⟨w, rest, o, rfl, ht, -, ho⟩ := Reading.reads_expr.readsAt ts p
  have hread := (ht .start rest p rfl).symm.trans hexpr
  cases ho with
  | ok hd =>
    obtain ⟨d, rfl, rfl⟩ := hd
    cases hread
    refine ⟨d, ?_, rfl⟩
    rcases hunread with rfl | ⟨q, rfl⟩
    · exact .inl (List.append_nil _)
    · exact .inr ⟨q, rfl⟩
  | fault => cases hread
  | deep => cases hread

/-- A lone expression is derived from the tokens that it is read from, which are the first ones. -/
theorem exists_expr_of_parseExpr {s : Stream} {e : Expr Unit} (h : s.parseExpr.result = .ok e) :
    ∃ d : Derivation.Expr, d.tokens <+: s.tokens ∧ d.tree = e := by
  obtain ⟨ts, p, rfl⟩ := exists_eof_of_parseExpr h
  obtain ⟨d, halone, rfl⟩ := exists_alone_of_parseExpr h
  exact ⟨d, halone.tokens_isPrefix, rfl⟩

/-- The names in a lone expression are those of tokens. -/
theorem names_of_parseExpr {s : Stream} {e : Expr Unit} (h : s.parseExpr.result = .ok e) :
    e.names ⊆ Token.names s.tokens := by
  obtain ⟨d, ⟨rest, hs⟩, rfl⟩ := exists_expr_of_parseExpr h
  rw [d.names_tree, ← hs, Token.names_append]
  exact List.subset_append_left ..

end Stream

end MiniPL
