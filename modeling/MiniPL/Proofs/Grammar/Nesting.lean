import MiniPL.Proofs.Grammar.Derivation

/-!
# Nesting of parentheses

How deep the parentheses of a row of tokens nest is the largest number of parentheses
that are open at a time (`Token.nesting`). Parentheses that are left open do not count
beyond the next semicolon, and closing ones that close nothing do not count at all; so
this is said of all tokens, whether they make a program or not. The tokens of an
expression leave as many parentheses open as there were before them
(`Derivation.Expr.parens_tokens`).
-/

namespace MiniPL

namespace Token

/-- How many parentheses are open after a token, if `n` are before it. -/
def parens (n : Nat) (t : Token) : Nat :=
  match t.lexeme with
  | .symbol .openParen => n + 1
  | .symbol .closeParen => n - 1
  | .symbol .semicolon => 0
  | _ => n

/-- The largest number of parentheses that are open at a time, if `n` are before the
    tokens. -/
def nestingFrom : (n : Nat) → List Token → Nat
  | n, [] => n
  | n, t :: rest => max n (nestingFrom (t.parens n) rest)

/-- How deep the parentheses nest. -/
def nesting (ts : List Token) : Nat := nestingFrom 0 ts

theorem le_nestingFrom (n : Nat) (ts : List Token) : n ≤ nestingFrom n ts := by
  cases ts with
  | nil => exact Nat.le_refl n
  | cons t rest => exact Nat.le_max_left ..

/-- Tokens nest as deep as those up to some place, or as those from there on. -/
theorem nestingFrom_append (n : Nat) (w rest : List Token) :
    nestingFrom n (w ++ rest) = max (nestingFrom n w) (nestingFrom (w.foldl parens n) rest) := by
  induction w generalizing n with
  | nil => exact (Nat.max_eq_right (le_nestingFrom n rest)).symm
  | cons t w ih =>
    rw [List.cons_append, nestingFrom, nestingFrom, ih, Nat.max_assoc, List.foldl_cons]

/-- Tokens nest as deep at least as those at their end do there. -/
theorem nestingFrom_foldl_le (n : Nat) (w rest : List Token) :
    nestingFrom (w.foldl parens n) rest ≤ nestingFrom n (w ++ rest) :=
  nestingFrom_append n w rest ▸ Nat.le_max_right ..

theorem nesting_le_append (w rest : List Token) : nesting w ≤ nesting (w ++ rest) := by
  rw [nesting, nesting, nestingFrom_append]
  exact Nat.le_max_left ..

/-- Tokens nest as deep at least as those at their end, if no parentheses are open there. -/
theorem nesting_le_append_of_closed {w : List Token} (h : w.foldl parens 0 = 0)
    (rest : List Token) : nesting rest ≤ nesting (w ++ rest) := by
  have := nestingFrom_foldl_le 0 w rest
  rwa [h] at this

/-- Nowhere are more parentheses open than tokens nest. -/
theorem foldl_parens_le_nestingFrom (n : Nat) (w rest : List Token) :
    w.foldl parens n ≤ nestingFrom n (w ++ rest) :=
  Nat.le_trans (le_nestingFrom _ rest) (nestingFrom_foldl_le n w rest)

/-- Only an opening parenthesis adds to those that are open. -/
theorem parens_le {t : Token} (h : t.lexeme ≠ .symbol .openParen) (n : Nat) : t.parens n ≤ n := by
  unfold parens
  split
  · exact absurd ‹_› h
  · exact Nat.sub_le n 1
  · exact Nat.zero_le n
  · exact Nat.le_refl n

/-- Another token that opens no parenthesis does not nest deeper. -/
theorem nesting_append_singleton {w : List Token} {t : Token}
    (h : t.lexeme ≠ .symbol .openParen) : nesting (w ++ [t]) = nesting w := by
  have hlast : nestingFrom (w.foldl parens 0) [t] ≤ nestingFrom 0 (w ++ []) :=
    Nat.max_le.2 ⟨foldl_parens_le_nestingFrom 0 w [],
      Nat.le_trans (parens_le h _) (foldl_parens_le_nestingFrom 0 w [])⟩
  rw [List.append_nil] at hlast
  rw [nesting, nestingFrom_append]
  exact Nat.max_eq_left hlast

@[simp] theorem parens_lexeme_literal (n : Nat) (l : Literal) (p : Pos) :
    (⟨l.lexeme, p⟩ : Token).parens n = n := by
  cases l <;> rfl

@[simp] theorem parens_binOp (n : Nat) (op : BinOp) (p : Pos) :
    (op.symbol.token p).parens n = n := by
  cases op <;> rfl

end Token

namespace Derivation

mutual

theorem Operand.parens_tokens (n : Nat) : (o : Operand) → o.tokens.foldl Token.parens n = n
  | .literal p l => Token.parens_lexeme_literal n l p
  | .var .. => rfl
  | .group p e q => by
    have h := e.parens_tokens (n + 1)
    simp only [Operand.tokens, List.foldl_append, List.foldl_cons, List.foldl_nil]
    rw [show (Symbol.token .openParen p).parens n = n + 1 from rfl, h]
    rfl

/-- An expression leaves as many parentheses open as there were before it. -/
theorem Expr.parens_tokens (n : Nat) : (e : Expr) → e.tokens.foldl Token.parens n = n
  | .single o => o.parens_tokens n
  | .negation p o => by
    simp only [Expr.tokens, List.foldl_append, List.foldl_cons, List.foldl_nil]
    exact o.parens_tokens n
  | .binary l op p r => by
    simp only [Expr.tokens, List.foldl_append, List.foldl_cons, List.foldl_nil,
      l.parens_tokens, Token.parens_binOp, r.parens_tokens]

end

/-- What opens a loop leaves no parentheses open. -/
theorem Opener.parens_forLoop (p₁ p : Pos) (x : String) (p₂ : Pos) (a : Expr) (p₃ : Pos) (b : Expr)
    (p₄ : Pos) : (forLoop p₁ p x p₂ a p₃ b p₄).tokens.foldl Token.parens 0 = 0 := by
  simp [tokens, Expr.parens_tokens, Token.parens]

/-- What opens a branch leaves no parentheses open. -/
theorem Opener.parens_ifThen (p : Pos) (c : Expr) (p₁ : Pos) :
    (ifThen p c p₁).tokens.foldl Token.parens 0 = 0 := by
  simp [tokens, Expr.parens_tokens, Token.parens]

/-- A block leaves no parentheses open. -/
theorem Block.parens_tokens : (b : Block) → b.tokens.foldl Token.parens 0 = 0
  | .nil => rfl
  | .cons s q rest => by
    rw [Block.tokens, List.foldl_append, List.foldl_append]
    exact rest.parens_tokens

end Derivation

end MiniPL
