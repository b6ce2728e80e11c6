import MiniPL.Proofs.Grammar.Names

/-!
# Where expressions end

A derivation tells of what tokens the expressions in it are made. Each of them is a *part* of all
the tokens: it stands after some of them, and ends with its last token (`Derivation.Part`). The
expressions of a tree are listed in the order in which their parts end
(`Derivation.Block.placed_parts`): an expression after those inside it, the left operand before the
right one, an earlier statement before a later one. No two of them end with the same token, for an
expression in another one is in parentheses, which are closed after it.
-/

namespace MiniPL.Derivation

/-- An expression among tokens, with the tokens before it. -/
structure Part where
  before : List Token
  inner : Expr

namespace Part

/-- The tokens up to the end of a part. -/
def upTo (x : Part) : List Token := x.before ++ x.inner.tokens

/-- How many tokens there are up to the end of a part. -/
def ending (x : Part) : Nat := x.upTo.length

end Part

mutual

/-- The expressions in an operand that stands after the tokens `before`. -/
def Operand.parts (before : List Token) : Operand → List Part
  | .literal .. => []
  | .var .. => []
  | .group p e _ => e.parts (before ++ [Symbol.token .openParen p])

/-- The expressions in an expression that stands after the tokens `before`, itself included. -/
def Expr.parts (before : List Token) : Expr → List Part
  | .single o => o.parts before ++ [⟨before, .single o⟩]
  | .negation p o => o.parts (before ++ [Symbol.token .bang p]) ++ [⟨before, .negation p o⟩]
  | .binary l op p r =>
    l.parts before ++ r.parts (before ++ l.tokens ++ [op.symbol.token p]) ++
      [⟨before, .binary l op p r⟩]

end

mutual

/-- The expressions in a statement that stands after the tokens `before`. -/
def Stmt.parts (before : List Token) : Stmt → List Part
  | .declare .. => []
  | .declareInit p₁ p x p₂ p₃ ty p₄ e =>
    e.parts (before ++ [Keyword.token .varK p₁, .ofName x p, Symbol.token .colon p₂,
      ty.keyword.token p₃, Symbol.token .assign p₄])
  | .assign p x p₁ e => e.parts (before ++ [.ofName x p, Symbol.token .assign p₁])
  | .forLoop p₁ p x p₂ a p₃ b p₄ body _ _ =>
    let before := before ++ [Keyword.token .forK p₁, .ofName x p, Keyword.token .inK p₂]
    let between := before ++ a.tokens ++ [Symbol.token .range p₃]
    a.parts before ++ b.parts between ++
      body.parts (between ++ b.tokens ++ [Keyword.token .doK p₄])
  | .ifThen p c p₁ body _ _ =>
    let before := before ++ [Keyword.token .ifK p]
    c.parts before ++ body.parts (before ++ c.tokens ++ [Keyword.token .doK p₁])
  | .ifElse p c p₁ body p₂ otherwise _ _ =>
    let before := before ++ [Keyword.token .ifK p]
    let between := before ++ c.tokens ++ [Keyword.token .doK p₁]
    c.parts before ++ body.parts between ++
      otherwise.parts (between ++ body.tokens ++ [Keyword.token .elseK p₂])
  | .print p e => e.parts (before ++ [Keyword.token .printK p])
  | .read .. => []
  | .assert p p₁ c _ =>
    c.parts (before ++ [Keyword.token .assertK p, Symbol.token .openParen p₁])

/-- The expressions in a block that stands after the tokens `before`. -/
def Block.parts (before : List Token) : Block → List Part
  | .nil => []
  | .cons s p rest =>
    s.parts before ++ rest.parts (before ++ s.tokens ++ [Symbol.token .semicolon p])

end

/-! ## The trees of parts -/

mutual

theorem Operand.tree_parts (before : List Token) :
    (d : Operand) → (d.parts before).map (·.inner.tree) = d.tree.exprs
  | .literal .. => rfl
  | .var .. => rfl
  | .group _ e _ => e.tree_parts _

theorem Expr.tree_parts (before : List Token) :
    (d : Expr) → (d.parts before).map (·.inner.tree) = d.tree.exprs
  | .single o => by
    rw [Expr.parts, List.map_append, o.tree_parts, Expr.tree, MiniPL.Expr.exprs]
    rfl
  | .negation _ o => by
    rw [Expr.parts, List.map_append, o.tree_parts, Expr.tree, MiniPL.Expr.exprs]
    rfl
  | .binary l _ _ r => by
    rw [Expr.parts, List.map_append, List.map_append, l.tree_parts, r.tree_parts, Expr.tree,
      MiniPL.Expr.exprs]
    rfl

end

mutual

theorem Stmt.tree_parts (before : List Token) :
    (d : Stmt) → (d.parts before).map (·.inner.tree) = d.tree.exprs
  | .declare .. => rfl
  | .declareInit _ _ _ _ _ _ _ e => e.tree_parts _
  | .assign _ _ _ e => e.tree_parts _
  | .forLoop _ _ _ _ a _ b _ body _ _ => by
    rw [Stmt.parts, List.map_append, List.map_append, a.tree_parts, b.tree_parts,
      body.tree_parts, Stmt.tree, MiniPL.Stmt.exprs]
  | .ifThen _ c _ body _ _ => by
    rw [Stmt.parts, List.map_append, c.tree_parts, body.tree_parts, Stmt.tree, MiniPL.Stmt.exprs]
  | .ifElse _ c _ body _ otherwise _ _ => by
    rw [Stmt.parts, List.map_append, List.map_append, c.tree_parts, body.tree_parts,
      otherwise.tree_parts, Stmt.tree, MiniPL.Stmt.exprs]
  | .print _ e => e.tree_parts _
  | .read .. => rfl
  | .assert _ _ c _ => c.tree_parts _

/-- The parts of a block are the expressions of its tree. -/
theorem Block.tree_parts (before : List Token) :
    (d : Block) → (d.parts before).map (·.inner.tree) = MiniPL.Block.exprs d.tree
  | .nil => rfl
  | .cons s _ rest => by
    rw [Block.parts, List.map_append, s.tree_parts, rest.tree_parts, Block.tree,
      MiniPL.Block.exprs]

end

/-! ## The places of parts -/

/-- Parts of the tokens `whole` that end one after the other, after `lo` tokens and before
    there are `hi`. -/
structure Placed (whole : List Token) (lo hi : Nat) (parts : List Part) : Prop where
  isPrefix : ∀ x ∈ parts, x.upTo <+: whole
  lt_ending : ∀ x ∈ parts, lo < x.ending
  ending_lt : ∀ x ∈ parts, x.ending < hi
  sorted : parts.Pairwise (·.ending < ·.ending)

namespace Placed

variable {whole : List Token} {lo mid mid' hi lo' hi' : Nat} {parts more : List Part}

theorem nil : Placed whole lo hi [] := ⟨nofun, nofun, nofun, .nil⟩

theorem mono (h : Placed whole lo hi parts) (hlo : lo' ≤ lo) (hhi : hi ≤ hi') :
    Placed whole lo' hi' parts where
  isPrefix := h.isPrefix
  lt_ending x hx := Nat.lt_of_le_of_lt hlo (h.lt_ending x hx)
  ending_lt x hx := Nat.lt_of_lt_of_le (h.ending_lt x hx) hhi
  sorted := h.sorted

/-- The last one of the first parts may end right before the others start. -/
theorem append (h : Placed whole lo mid parts) (h' : Placed whole mid' hi more)
    (hmid : mid ≤ mid' + 1) (hlo : lo ≤ mid') (hhi : mid' < hi) :
    Placed whole lo hi (parts ++ more) where
  isPrefix := List.forall_mem_append.2 ⟨h.isPrefix, h'.isPrefix⟩
  lt_ending := List.forall_mem_append.2 ⟨h.lt_ending, (h'.mono hlo (Nat.le_refl _)).lt_ending⟩
  ending_lt := List.forall_mem_append.2
    ⟨(h.mono (Nat.le_refl _) (Nat.le_trans hmid hhi)).ending_lt, h'.ending_lt⟩
  sorted := List.pairwise_append.2 ⟨h.sorted, h'.sorted, fun x hx y hy =>
    Nat.lt_of_lt_of_le (h.ending_lt x hx) (Nat.le_trans hmid (h'.lt_ending y hy))⟩

theorem concat (h : Placed whole lo hi parts) {x : Part} (hx : x.upTo <+: whole)
    (hlo : lo < x.ending) (hhi : hi ≤ x.ending) :
    Placed whole lo (x.ending + 1) (parts ++ [x]) where
  isPrefix := List.forall_mem_append.2 ⟨h.isPrefix, List.forall_mem_singleton.2 hx⟩
  lt_ending := List.forall_mem_append.2 ⟨h.lt_ending, List.forall_mem_singleton.2 hlo⟩
  ending_lt := List.forall_mem_append.2 ⟨fun y hy => Nat.lt_succ_of_lt
    (Nat.lt_of_lt_of_le (h.ending_lt y hy) hhi), List.forall_mem_singleton.2 (Nat.lt_succ_self _)⟩
  sorted := List.pairwise_append.2 ⟨h.sorted, List.pairwise_singleton _ _, fun y hy _ hz =>
    List.mem_singleton.1 hz ▸ Nat.lt_of_lt_of_le (h.ending_lt y hy) hhi⟩

end Placed

theorem Operand.length_tokens_pos (d : Operand) : 0 < d.tokens.length := by
  cases d <;> simp [tokens]

theorem Expr.length_tokens_pos (d : Expr) : 0 < d.tokens.length := by
  cases d with
  | single o => exact o.length_tokens_pos
  | negation p o => simp [tokens]
  | binary l op p r =>
    rw [tokens, List.length_append]
    exact Nat.add_pos_right _ r.length_tokens_pos

/-- An expression is the last one of its own parts. -/
theorem Placed.self {whole before : List Token} {hi : Nat} {parts : List Part} {d : Expr}
    (hparts : Placed whole before.length hi parts) (h : before ++ d.tokens <+: whole)
    (hhi : hi ≤ before.length + d.tokens.length) :
    Placed whole before.length (before.length + d.tokens.length + 1) (parts ++ [⟨before, d⟩]) := by
  have hend : (Part.mk before d).ending = before.length + d.tokens.length := List.length_append
  have hpos := d.length_tokens_pos
  rw [← hend] at hhi ⊢
  exact hparts.concat h (by omega) hhi

section Places

variable {whole : List Token}

theorem isPrefix_left {ts us : List Token} (h : ts ++ us <+: whole) : ts <+: whole :=
  (List.prefix_append ts us).trans h

mutual

theorem Operand.placed_parts (d : Operand) {before : List Token}
    (h : before ++ d.tokens <+: whole) :
    Placed whole before.length (before.length + d.tokens.length) (d.parts before) := by
  cases d with
  | literal p l => exact .nil
  | var p x => exact .nil
  | group p e q =>
    simp only [Operand.tokens, ← List.append_assoc] at h
    exact (e.placed_parts (isPrefix_left h)).mono (by simp) (by simp [Operand.tokens]; omega)
termination_by structural d

theorem Expr.placed_parts (d : Expr) {before : List Token} (h : before ++ d.tokens <+: whole) :
    Placed whole before.length (before.length + d.tokens.length + 1) (d.parts before) := by
  have hself := h
  cases d with
  | single o => exact (o.placed_parts h).self h (Nat.le_refl _)
  | negation p o =>
    simp only [Expr.tokens, ← List.append_assoc] at h
    have ho := o.placed_parts h
    exact (ho.mono (by simp) (Nat.le_refl _)).self hself (by simp [Expr.tokens]; omega)
  | binary l op p r =>
    simp only [Expr.tokens, ← List.append_assoc] at h
    have hl := l.placed_parts (isPrefix_left (isPrefix_left h))
    have hr := r.placed_parts h
    have hpos := r.length_tokens_pos
    refine (hl.append hr ?_ ?_ ?_).self hself ?_
    all_goals simp [Expr.tokens]
    all_goals omega
termination_by structural d

end

mutual

theorem Stmt.placed_parts (d : Stmt) {before : List Token} (h : before ++ d.tokens <+: whole) :
    Placed whole before.length (before.length + d.tokens.length + 1) (d.parts before) := by
  cases d with
  | declare => exact .nil
  | read => exact .nil
  | declareInit p₁ p x p₂ p₃ ty p₄ e =>
    rw [Stmt.tokens, ← List.append_assoc] at h
    exact (e.placed_parts h).mono (by simp) (by simp [Stmt.tokens]; omega)
  | assign p x p₁ e =>
    rw [Stmt.tokens, ← List.append_assoc] at h
    exact (e.placed_parts h).mono (by simp) (by simp [Stmt.tokens]; omega)
  | forLoop p₁ p x p₂ a p₃ b p₄ body p₅ p₆ =>
    simp only [Stmt.tokens, ← List.append_assoc] at h
    have hbody := body.placed_parts (isPrefix_left h)
    have hb := b.placed_parts (isPrefix_left (isPrefix_left (isPrefix_left h)))
    have ha := a.placed_parts
      (isPrefix_left (isPrefix_left (isPrefix_left (isPrefix_left (isPrefix_left h)))))
    refine ((ha.append hb ?_ ?_ ?_).append hbody ?_ ?_ ?_).mono ?_ ?_
    all_goals simp only [Stmt.tokens, List.length_append, List.length_cons, List.length_nil]
    all_goals omega
  | ifThen p c p₁ body p₂ p₃ =>
    simp only [Stmt.tokens, ← List.append_assoc] at h
    have hbody := body.placed_parts (isPrefix_left h)
    have hc := c.placed_parts (isPrefix_left (isPrefix_left (isPrefix_left h)))
    refine (hc.append hbody ?_ ?_ ?_).mono ?_ ?_
    all_goals simp only [Stmt.tokens, List.length_append, List.length_cons, List.length_nil]
    all_goals omega
  | ifElse p c p₁ body p₂ otherwise p₃ p₄ =>
    simp only [Stmt.tokens, ← List.append_assoc] at h
    have hotherwise := otherwise.placed_parts (isPrefix_left h)
    have hbody := body.placed_parts (isPrefix_left (isPrefix_left (isPrefix_left h)))
    have hc := c.placed_parts
      (isPrefix_left (isPrefix_left (isPrefix_left (isPrefix_left (isPrefix_left h)))))
    refine ((hc.append hbody ?_ ?_ ?_).append hotherwise ?_ ?_ ?_).mono ?_ ?_
    all_goals simp only [Stmt.tokens, List.length_append, List.length_cons, List.length_nil]
    all_goals omega
  | print p e =>
    rw [Stmt.tokens, ← List.append_assoc] at h
    exact (e.placed_parts h).mono (by simp) (by simp [Stmt.tokens]; omega)
  | assert p p₁ c p₂ =>
    simp only [Stmt.tokens, ← List.append_assoc] at h
    exact (c.placed_parts (isPrefix_left h)).mono (by simp) (by simp [Stmt.tokens]; omega)
termination_by structural d

/-- The expressions in a block end one after the other. -/
theorem Block.placed_parts (d : Block) {before : List Token} (h : before ++ d.tokens <+: whole) :
    Placed whole before.length (before.length + d.tokens.length + 1) (d.parts before) := by
  cases d with
  | nil => exact .nil
  | cons s p rest =>
    simp only [Block.tokens, ← List.append_assoc] at h
    have hs := s.placed_parts (isPrefix_left (isPrefix_left h))
    have hrest := rest.placed_parts h
    refine (hs.append hrest ?_ ?_ ?_).mono (Nat.le_refl _) ?_
    all_goals simp only [Block.tokens, List.length_append, List.length_cons, List.length_nil]
    all_goals omega
termination_by structural d

end

end Places

end MiniPL.Derivation
