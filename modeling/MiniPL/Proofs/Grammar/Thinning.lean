import MiniPL.Proofs.Grammar.Takes

/-!
# Leaving out semicolons

Some semicolons of a program may be left out (`Token.thin`). Each of those has a fault then, at the
last token before it (`Token.missing`). Only statements have semicolons, and no statement ends with
one, so what is left of a statement ends where the statement ends (`Derivation.Stmt.lastPos_thin`).
-/

namespace MiniPL

/-! ## Tokens -/

namespace Token

/-- The tokens without those semicolons that `drop` selects by their places. -/
def thin (drop : Nat → Bool) : List Token → List Token
  | [] => []
  | t :: ts =>
    (if t.lexeme = .symbol .semicolon ∧ drop 0 then [] else [t]) ++ thin (fun i => drop (i + 1)) ts

/-- The faults for the semicolons that `drop` selects, in order: each is missing after the token
    before it. The token before the first one stands at `l`. -/
def missing (drop : Nat → Bool) (l : Pos) : List Token → List (Located SyntaxFault)
  | [] => []
  | t :: ts =>
    (if t.lexeme = .symbol .semicolon ∧ drop 0 then [⟨.missingSemicolon, l⟩] else []) ++
      missing (fun i => drop (i + 1)) t.pos ts

variable {drop : Nat → Bool} {l : Pos} {ts us : List Token}

theorem thin_append : (drop : Nat → Bool) → (ts us : List Token) →
    thin drop (ts ++ us) = thin drop ts ++ thin (fun i => drop (ts.length + i)) us
  | drop, [], us => by simp [thin]
  | drop, t :: ts, us => by
    rw [List.cons_append, thin, thin, thin_append, List.append_assoc]
    simp only [List.length_cons, Nat.add_right_comm]

theorem missing_append : (drop : Nat → Bool) → (l : Pos) → (ts us : List Token) →
    missing drop l (ts ++ us) =
      missing drop l ts ++ missing (fun i => drop (ts.length + i)) (lastPos l ts) us
  | drop, l, [], us => by simp [missing]
  | drop, l, t :: ts, us => by
    rw [List.cons_append, missing, missing, missing_append, List.append_assoc]
    simp only [List.length_cons, Nat.add_right_comm, lastPos_cons]

/-- Without semicolons, there is nothing to leave out. -/
theorem thin_of_ne (h : ∀ t ∈ ts, t.lexeme ≠ .symbol .semicolon) : thin drop ts = ts := by
  induction ts generalizing drop with
  | nil => rfl
  | cons t ts ih =>
    rw [thin, if_neg fun ht => h t List.mem_cons_self ht.1,
      ih fun u hu => h u (List.mem_cons_of_mem t hu)]
    rfl

theorem missing_of_ne (h : ∀ t ∈ ts, t.lexeme ≠ .symbol .semicolon) : missing drop l ts = [] := by
  induction ts generalizing drop l with
  | nil => rfl
  | cons t ts ih =>
    rw [missing, if_neg fun ht => h t List.mem_cons_self ht.1,
      ih fun u hu => h u (List.mem_cons_of_mem t hu)]
    rfl

end Token

/-! ## Derivations -/

namespace Derivation

mutual

theorem Operand.ne_semicolon : (o : Operand) → ∀ t ∈ o.tokens, t.lexeme ≠ .symbol .semicolon
  | .literal p l => by cases l <;> simp [Operand.tokens, Literal.lexeme]
  | .var p x => by simp [Operand.tokens]
  | .group p e q => by
    have := e.ne_semicolon
    simp only [Operand.tokens, List.mem_append, List.mem_singleton]
    rintro t ((rfl | h) | rfl)
    · nofun
    · exact this t h
    · nofun

/-- There is no semicolon in an expression. -/
theorem Expr.ne_semicolon : (e : Expr) → ∀ t ∈ e.tokens, t.lexeme ≠ .symbol .semicolon
  | .single o => o.ne_semicolon
  | .negation p o => by
    simp only [Expr.tokens, List.mem_append, List.mem_singleton]
    rintro t (rfl | h)
    · nofun
    · exact o.ne_semicolon t h
  | .binary l op p r => by
    simp only [Expr.tokens, List.mem_append, List.mem_singleton]
    rintro t ((h | rfl) | h)
    · exact l.ne_semicolon t h
    · cases op <;> nofun
    · exact r.ne_semicolon t h

end

/-- There is no semicolon in a statement without blocks. -/
theorem Stmt.ne_semicolon (s : Stmt) (hs : s.isSimple) :
    ∀ t ∈ s.tokens, t.lexeme ≠ .symbol .semicolon := by
  cases s with
  | forLoop | ifThen | ifElse => cases hs
  | declare | read => simp [Stmt.tokens]
  | _ => simpa [Stmt.tokens, or_imp, forall_and] using Expr.ne_semicolon _

theorem Opener.ne_semicolon_forLoop (p₁ p : Pos) (x : String) (p₂ : Pos) (a : Expr) (p₃ : Pos)
    (b : Expr) (p₄ : Pos) :
    ∀ t ∈ (forLoop p₁ p x p₂ a p₃ b p₄).tokens, t.lexeme ≠ .symbol .semicolon := by
  simpa [tokens, or_imp, forall_and] using ⟨a.ne_semicolon, b.ne_semicolon⟩

theorem Opener.ne_semicolon_ifThen (p : Pos) (c : Expr) (p₁ : Pos) :
    ∀ t ∈ (ifThen p c p₁).tokens, t.lexeme ≠ .symbol .semicolon := by
  simpa [tokens, or_imp, forall_and] using c.ne_semicolon

/-- A statement ends with a token that is not left out. -/
theorem Stmt.exists_concat (s : Stmt) :
    ∃ u t, s.tokens = u ++ [t] ∧ t.lexeme ≠ .symbol .semicolon := by
  by_cases hs : s.isSimple
  · obtain ⟨u, t, h, -⟩ := Token.exists_concat s.tokens_ne_nil
    exact ⟨u, t, h, s.ne_semicolon hs t (by simp [h])⟩
  · -- The others end with their closing keywords.
    cases s with
    | forLoop | ifThen | ifElse =>
      rw [Stmt.tokens, List.append_cons]
      exact ⟨_, _, rfl, fun h => by cases h⟩
    | _ => exact absurd rfl hs

/-- What is left of a statement ends where the statement ends. -/
theorem Stmt.lastPos_thin (s : Stmt) (drop : Nat → Bool) (l : Pos) :
    Token.thin drop s.tokens ≠ [] ∧
      Token.lastPos l (Token.thin drop s.tokens) = Token.lastPos l s.tokens := by
  obtain ⟨u, t, h, ht⟩ := s.exists_concat
  have hlast : ∀ t' ∈ [t], t'.lexeme ≠ .symbol .semicolon := by simpa using ht
  rw [h, Token.thin_append, Token.thin_of_ne hlast]
  simp

end Derivation

end MiniPL
