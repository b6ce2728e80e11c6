import MiniPL.Grammar.Program

/-!
# Derivations

    program    ::= block eof
    block      ::= { statement ";" }
    statement  ::= "var" name ":" type [ ":=" expression ]
                 | name ":=" expression
                 | "for" name "in" expression ".." expression "do" block "end" "for"
                 | "if" expression "do" block [ "else" block ] "end" "if"
                 | "print" expression
                 | "read" name
                 | "assert" "(" expression ")"
    expression ::= "!" operand | operand [ operator operand ]
    operand    ::= integer | text | name | "(" expression ")"

A derivation tells how tokens are made by these rules: there is one constructor for each
alternative, which holds the derivations of its parts and the positions of its tokens.
What it derives is a row of tokens (`tokens`), and it describes a syntax tree (`tree`),
which forgets where the punctuation stands.
-/

namespace MiniPL

/-- The token of a symbol. -/
abbrev Symbol.token (s : Symbol) (p : Pos) : Token := ⟨.symbol s, p⟩

/-- The token of a keyword. -/
abbrev Keyword.token (k : Keyword) (p : Pos) : Token := ⟨.keyword k, p⟩

/-- The token of a name. -/
abbrev Token.ofName (x : String) (p : Pos) : Token := ⟨.name x, p⟩

/-- The keyword of a type. -/
def Ty.keyword : Ty → Keyword
  | int => .intK
  | string => .stringK
  | bool => .boolK

namespace Derivation

mutual

/-- The derivations of operands. -/
inductive Operand
  | literal (p : Pos) (l : Literal)
  | var (p : Pos) (x : String)
  | group (openPos : Pos) (inner : Expr) (closePos : Pos)

/-- The derivations of expressions. -/
inductive Expr
  | single (o : Operand)
  | negation (p : Pos) (o : Operand)
  | binary (left : Operand) (op : BinOp) (opPos : Pos) (right : Operand)

end

mutual

/-- The derivations of statements. -/
inductive Stmt
  | declare (varPos p : Pos) (x : String) (colonPos tyPos : Pos) (ty : Ty)
  | declareInit (varPos p : Pos) (x : String) (colonPos tyPos : Pos) (ty : Ty)
    (assignPos : Pos) (init : Expr)
  | assign (p : Pos) (x : String) (assignPos : Pos) (value : Expr)
  | forLoop (forPos p : Pos) (x : String) (inPos : Pos) (first : Expr) (rangePos : Pos)
    (last : Expr) (doPos : Pos) (body : Block) (endPos closePos : Pos)
  | ifThen (p : Pos) (cond : Expr) (doPos : Pos) (body : Block) (endPos closePos : Pos)
  | ifElse (p : Pos) (cond : Expr) (doPos : Pos) (body : Block) (elsePos : Pos)
    (otherwise : Block) (endPos closePos : Pos)
  | print (p : Pos) (value : Expr)
  | read (readPos p : Pos) (x : String)
  | assert (p openPos : Pos) (cond : Expr) (closePos : Pos)

/-- The derivations of blocks. -/
inductive Block
  | nil
  | cons (s : Stmt) (semicolonPos : Pos) (rest : Block)

end

mutual

/-- The tokens of an operand. -/
def Operand.tokens : Operand → List Token
  | .literal p l => [⟨l.lexeme, p⟩]
  | .var p x => [.ofName x p]
  | .group p e q => [Symbol.token .openParen p] ++ e.tokens ++ [Symbol.token .closeParen q]

/-- The tokens of an expression. -/
def Expr.tokens : Expr → List Token
  | .single o => o.tokens
  | .negation p o => [Symbol.token .bang p] ++ o.tokens
  | .binary l op p r => l.tokens ++ [op.symbol.token p] ++ r.tokens

end

mutual

/-- The tokens of a statement. -/
def Stmt.tokens : Stmt → List Token
  | .declare p₁ p x p₂ p₃ ty =>
    [Keyword.token .varK p₁, .ofName x p, Symbol.token .colon p₂, ty.keyword.token p₃]
  | .declareInit p₁ p x p₂ p₃ ty p₄ e =>
    [Keyword.token .varK p₁, .ofName x p, Symbol.token .colon p₂, ty.keyword.token p₃,
      Symbol.token .assign p₄] ++ e.tokens
  | .assign p x p₁ e => [.ofName x p, Symbol.token .assign p₁] ++ e.tokens
  | .forLoop p₁ p x p₂ a p₃ b p₄ body p₅ p₆ =>
    [Keyword.token .forK p₁, .ofName x p, Keyword.token .inK p₂] ++ a.tokens ++
      [Symbol.token .range p₃] ++ b.tokens ++ [Keyword.token .doK p₄] ++ body.tokens ++
      [Keyword.token .endK p₅, Keyword.token .forK p₆]
  | .ifThen p c p₁ body p₂ p₃ =>
    [Keyword.token .ifK p] ++ c.tokens ++ [Keyword.token .doK p₁] ++ body.tokens ++
      [Keyword.token .endK p₂, Keyword.token .ifK p₃]
  | .ifElse p c p₁ body p₂ otherwise p₃ p₄ =>
    [Keyword.token .ifK p] ++ c.tokens ++ [Keyword.token .doK p₁] ++ body.tokens ++
      [Keyword.token .elseK p₂] ++ otherwise.tokens ++
      [Keyword.token .endK p₃, Keyword.token .ifK p₄]
  | .print p e => [Keyword.token .printK p] ++ e.tokens
  | .read p₁ p x => [Keyword.token .readK p₁, .ofName x p]
  | .assert p p₁ c p₂ =>
    [Keyword.token .assertK p, Symbol.token .openParen p₁] ++ c.tokens ++
      [Symbol.token .closeParen p₂]

/-- The tokens of a block. -/
def Block.tokens : Block → List Token
  | .nil => []
  | .cons s p rest => s.tokens ++ [Symbol.token .semicolon p] ++ rest.tokens

end

mutual

/-- The tree of an operand. -/
def Operand.tree : Operand → MiniPL.Operand Unit
  | .literal p l => .literal p l
  | .var p x => .var p x
  | .group p e _ => .group p e.tree

/-- The tree of an expression. -/
def Expr.tree : Expr → MiniPL.Expr Unit
  | .single o => .single () o.tree
  | .negation p o => .negation () p o.tree
  | .binary l op p r => .binary () l.tree op p r.tree

end

mutual

/-- The tree of a statement. -/
def Stmt.tree : Stmt → MiniPL.Stmt Unit
  | .declare _ p x _ _ ty => .declare p x ty none
  | .declareInit _ p x _ _ ty _ e => .declare p x ty (some e.tree)
  | .assign p x _ e => .assign p x e.tree
  | .forLoop _ p x _ a _ b _ body _ _ => .forLoop p x a.tree b.tree body.tree
  | .ifThen p c _ body _ _ => .ifThen p c.tree body.tree
  | .ifElse p c _ body _ otherwise _ _ => .ifElse p c.tree body.tree otherwise.tree
  | .print p e => .print p e.tree
  | .read _ p x => .read p x
  | .assert p _ c _ => .assert p c.tree

/-- The tree of a block. -/
def Block.tree : Block → MiniPL.Block Unit
  | .nil => []
  | .cons s _ rest => s.tree :: rest.tree

end

/-- A statement does not start like the end of a block. -/
theorem Stmt.exists_cons_tokens (s : Stmt) : ∃ t ts, s.tokens = t :: ts ∧
    t.lexeme ≠ .keyword .endK ∧ t.lexeme ≠ .keyword .elseK := by
  cases s <;> exact ⟨_, _, rfl, nofun, nofun⟩

theorem Stmt.tokens_ne_nil (s : Stmt) : s.tokens ≠ [] := by
  obtain ⟨t, ts, h, -⟩ := s.exists_cons_tokens
  rw [h]
  exact List.cons_ne_nil t ts

/-- Whether a statement has no blocks. -/
def Stmt.isSimple : Stmt → Bool
  | .forLoop .. | .ifThen .. | .ifElse .. => false
  | _ => true

/-! ## Blocks -/

/-- The block with another statement at its end. -/
def Block.snoc : Block → Stmt → Pos → Block
  | .nil, s, q => .cons s q .nil
  | .cons t p rest, s, q => .cons t p (rest.snoc s q)

theorem Block.tokens_snoc (s : Stmt) (q : Pos) :
    (b : Block) → (b.snoc s q).tokens = b.tokens ++ s.tokens ++ [Symbol.token .semicolon q]
  | .nil => by simp [snoc, tokens]
  | .cons t p rest => by simp [snoc, tokens, rest.tokens_snoc s q]

theorem Block.tree_snoc (s : Stmt) (q : Pos) :
    (b : Block) → (b.snoc s q).tree = b.tree ++ [s.tree]
  | .nil => rfl
  | .cons t p rest => by simp [snoc, tree, rest.tree_snoc s q]

/-! ## Openers -/

/-- The derivations of what opens a block. What opens an alternative holds the block
    before it too. -/
inductive Opener
  | forLoop (forPos p : Pos) (x : String) (inPos : Pos) (first : Expr) (rangePos : Pos)
    (last : Expr) (doPos : Pos)
  | ifThen (p : Pos) (cond : Expr) (doPos : Pos)
  | ifElse (p : Pos) (cond : Expr) (doPos : Pos) (body : Block) (elsePos : Pos)

namespace Opener

/-- The tokens of what opens a block. -/
def tokens : Opener → List Token
  | forLoop p₁ p x p₂ a p₃ b p₄ =>
    [Keyword.token .forK p₁, .ofName x p, Keyword.token .inK p₂] ++ a.tokens ++
      [Symbol.token .range p₃] ++ b.tokens ++ [Keyword.token .doK p₄]
  | ifThen p c p₁ => [Keyword.token .ifK p] ++ c.tokens ++ [Keyword.token .doK p₁]
  | ifElse p c p₁ body p₂ =>
    [Keyword.token .ifK p] ++ c.tokens ++ [Keyword.token .doK p₁] ++ body.tokens ++
      [Keyword.token .elseK p₂]

/-- What opens a block. -/
def tree : Opener → MiniPL.Opener
  | forLoop _ p x _ a _ b _ => .forLoop p x a.tree b.tree
  | ifThen p c _ => .ifThen p c.tree
  | ifElse p c _ body _ => .ifElse p c.tree body.tree

/-- The statement with the given block, which ends at the given positions. -/
def close (block : Block) (endPos closePos : Pos) : Opener → Stmt
  | forLoop p₁ p x p₂ a p₃ b p₄ => .forLoop p₁ p x p₂ a p₃ b p₄ block endPos closePos
  | ifThen p c p₁ => .ifThen p c p₁ block endPos closePos
  | ifElse p c p₁ body p₂ => .ifElse p c p₁ body p₂ block endPos closePos

theorem tokens_ne_nil (o : Opener) : o.tokens ≠ [] := by
  cases o <;> simp [tokens]

theorem tokens_close (b : Block) (q₁ q₂ : Pos) (o : Opener) :
    (o.close b q₁ q₂).tokens = o.tokens ++ b.tokens ++
      [Keyword.token .endK q₁, o.tree.keyword.token q₂] := by
  cases o <;> simp [close, tokens, tree, Stmt.tokens, MiniPL.Opener.keyword]

theorem tree_close (b : Block) (q₁ q₂ : Pos) (o : Opener) :
    (o.close b q₁ q₂).tree = o.tree.close b.tree := by
  cases o <;> rfl

end Opener

/-! ## Positions -/

/-- An operand stands where its first token stands. -/
theorem Operand.head?_tokens (o : Operand) : o.tokens.head?.map Token.pos = some o.tree.pos := by
  cases o <;> rfl

/-- An expression stands where its first token stands. -/
theorem Expr.head?_tokens (e : Expr) : e.tokens.head?.map Token.pos = some e.tree.pos := by
  cases e with
  | single o => exact o.head?_tokens
  | negation p o => rfl
  | binary l op p r =>
    have h := l.head?_tokens
    rw [Expr.tokens, List.append_assoc, List.head?_append]
    cases hl : l.tokens.head? with
    | none => simp [hl] at h
    | some t =>
      rw [hl] at h
      exact h

end Derivation

end MiniPL
