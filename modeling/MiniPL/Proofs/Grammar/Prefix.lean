import MiniPL.Proofs.Grammar.Derivation

/-!
# Prefixes of programs

Items are *viable* if a program starts with them (`Derivation.Viable`). Between two
statements of a program some blocks are open, and each of them has some statements already
(`Derivation.Opens`): this is all that a parser keeps. Whatever is open, any statement may
follow (`Derivation.Opens.snoc`), and all that is open can be closed
(`Derivation.Opens.exists_program`); so the tokens up to there are viable.
-/

namespace MiniPL

namespace Derivation

/-- A program starts with the items `is`. -/
def Viable (is : List Item) : Prop :=
  ∃ (d : Block) (q : Pos), is <+: (Stream.items ⟨d.tokens, .eof q⟩)

/-- A statement ends where the tokens `w` end: they are those of a statement after tokens
    after which any statement may stand. -/
def EndsStatement (w : List Token) : Prop :=
  ∃ (u : List Token) (d : Stmt), w = u ++ d.tokens ∧ ∀ (s : Stmt) (q : Pos),
    Viable ((u ++ s.tokens ++ [Symbol.token .semicolon q]).map .token)

theorem Viable.of_isPrefix {is js : List Item} (h : Viable js) (hp : is <+: js) : Viable is := by
  obtain ⟨d, q, h⟩ := h
  exact ⟨d, q, hp.trans h⟩

theorem viable_of_tokens_eq {w u : List Token} (d : Block) (h : d.tokens = w ++ u) :
    Viable (w.map .token) := by
  refine ⟨d, .start, u.map .token ++ [.eof .start], ?_⟩
  rw [Stream.items, h, List.map_append, List.append_assoc]

/-- The tokens `w` are those of a program up to a place between two statements where the
    blocks `outer` are open; the statements of the innermost block are `done`. -/
inductive Opens : List Token → (outer : List OpenBlock) → (done : List (MiniPL.Stmt Unit)) → Prop
  | top (b : Block) : Opens b.tokens [] b.tree.reverse
  | inside {w : List Token} {outer : List OpenBlock} {before : List (MiniPL.Stmt Unit)}
    (h : Opens w outer before) (o : Opener) (b : Block) :
    Opens (w ++ o.tokens ++ b.tokens) (⟨o.tree, before⟩ :: outer) b.tree.reverse

namespace Opens

variable {w : List Token} {outer : List OpenBlock} {done : List (MiniPL.Stmt Unit)}

/-- Any statement may follow. -/
theorem snoc (h : Opens w outer done) (s : Stmt) (q : Pos) :
    Opens (w ++ s.tokens ++ [Symbol.token .semicolon q]) outer (s.tree :: done) := by
  cases h with
  | top b =>
    have h := top (b.snoc s q)
    rwa [b.tokens_snoc, b.tree_snoc, List.reverse_append] at h
  | inside h o b =>
    have h := h.inside o (b.snoc s q)
    rwa [b.tokens_snoc, b.tree_snoc, List.reverse_append, ← List.append_assoc,
      ← List.append_assoc] at h

/-- A block may be opened. -/
theorem enter (h : Opens w outer done) (o : Opener) :
    Opens (w ++ o.tokens) (⟨o.tree, done⟩ :: outer) [] := by
  have h := h.inside o .nil
  rwa [Block.tokens, List.append_nil] at h

/-- All that is open can be closed. -/
theorem exists_program (h : Opens w outer done) :
    ∃ (d : Block) (u : List Token), d.tokens = w ++ u := by
  induction outer generalizing w done with
  | nil =>
    cases h with
    | top b => exact ⟨b, [], (List.append_nil _).symm⟩
  | cons o outer ih =>
    cases h with
    | inside h o b =>
      -- The innermost block is closed; the rest is closed by induction.
      obtain ⟨d, u, hd⟩ := ih (h.snoc (o.close b .start .start) .start)
      rw [o.tokens_close] at hd
      exact ⟨d, [Keyword.token .endK .start, o.tree.keyword.token .start,
        Symbol.token .semicolon .start] ++ u, by simp [hd]⟩

theorem viable (h : Opens w outer done) : Viable (w.map .token) := by
  obtain ⟨d, u, hd⟩ := h.exists_program
  exact viable_of_tokens_eq d hd

theorem endsStatement (h : Opens w outer done) (d : Stmt) : EndsStatement (w ++ d.tokens) :=
  ⟨w, d, rfl, fun s q => (h.snoc s q).viable⟩

/-- The tokens of a program. -/
theorem exists_block (h : Opens w [] done) : ∃ b : Block, b.tokens = w ∧ b.tree = done.reverse := by
  cases h with
  | top b => exact ⟨b, rfl, (List.reverse_reverse _).symm⟩

/-- The end of a block makes a statement of it. -/
theorem exists_close {o : MiniPL.Opener} {before : List (MiniPL.Stmt Unit)}
    (h : Opens w (⟨o, before⟩ :: outer) done) (q₁ q₂ : Pos) :
    ∃ (v : List Token) (s : Stmt), Opens v outer before ∧ s.tree = o.close done.reverse ∧
      v ++ s.tokens = w ++ [Keyword.token .endK q₁, o.keyword.token q₂] := by
  cases h with
  | @inside v _ _ h o b =>
    -- The statement starts where its block was opened.
    refine ⟨v, o.close b q₁ q₂, h, ?_, ?_⟩
    · rw [o.tree_close, List.reverse_reverse]
    · rw [o.tokens_close, List.append_assoc, List.append_assoc]
      simp only [List.append_assoc]

/-- The block of a branch may be followed by another one. -/
theorem alternative {p : Pos} {c : MiniPL.Expr Unit} {before : List (MiniPL.Stmt Unit)}
    (h : Opens w (⟨.ifThen p c, before⟩ :: outer) done) (q : Pos) :
    Opens (w ++ [Keyword.token .elseK q]) (⟨.ifElse p c done.reverse, before⟩ :: outer) [] := by
  generalize ho : (⟨.ifThen p c, before⟩ : OpenBlock) = block at h
  cases h with
  | inside h o b =>
    -- Only a branch opens a block that may be followed by another one.
    cases o with
    | ifThen p' c' p₁ =>
      cases ho
      have h := h.enter (.ifElse p c' p₁ b q)
      rw [List.reverse_reverse]
      simpa only [Opener.tokens, Opener.tree, List.append_assoc] using h
    | forLoop => cases ho
    | ifElse => cases ho

end Opens

end Derivation

end MiniPL
