import MiniPL.Proofs.Grammar.Faults

/-!
# Programs are parsed

Parsing *comes* over some tokens to other open blocks (`ParseState.Comes`) if it gets there
without a fault, whatever follows these tokens, unless parentheses are nested too deeply. It
does so over every statement with its semicolon and over every block, by induction on their
derivations (`ParseState.comes_stmt`, `ParseState.comes_block`); so it does over the tokens of
a program (`ParseState.complete_or_deep`).
-/

namespace MiniPL

namespace ParseState

/-- Parsing leads from `p` to `q` without a fault, or the first fault is that parentheses are
    nested too deeply. -/
def Arrives (p q : ParseState) : Prop :=
  Leads [] p q ∨ ∃ pos, p.faults.head? = some ⟨.nestedTooDeeply, pos⟩

theorem Arrives.trans {p q r : ParseState} (h₁ : Arrives p q) (h₂ : Arrives q r) :
    Arrives p r := by
  rcases h₁ with h₁ | h₁
  · -- There is no fault before `q`, so the first one from there is the first one at all.
    rcases h₂ with h₂ | ⟨pos, h₂⟩
    · exact Or.inl (h₁.trans h₂)
    · refine Or.inr ⟨pos, ?_⟩
      rw [h₁.faults, List.nil_append, h₂]
  · exact Or.inr h₁

/-- Parsing comes over the tokens `w`, from the blocks `outer` and the statements `done` in the
    innermost one to `outer'` and `done'`. -/
def Comes (outer : List OpenBlock) (done : List (Stmt Unit)) (w : List Token)
    (outer' : List OpenBlock) (done' : List (Stmt Unit)) : Prop :=
  ∀ l rest p, Arrives ⟨⟨l, w ++ rest, .eof p⟩, outer, done⟩
    ⟨⟨Token.lastPos l w, rest, .eof p⟩, outer', done'⟩

variable {outer outer₁ outer₂ : List OpenBlock} {done done₁ done₂ before : List (Stmt Unit)}

theorem comes_nil (outer : List OpenBlock) (done : List (Stmt Unit)) :
    Comes outer done [] outer done :=
  fun _ _ _ => Or.inl ⟨rfl, rfl⟩

theorem Comes.trans {w u : List Token} (h₁ : Comes outer done w outer₁ done₁)
    (h₂ : Comes outer₁ done₁ u outer₂ done₂) : Comes outer done (w ++ u) outer₂ done₂ := by
  intro l rest p
  rw [List.append_assoc, Token.lastPos_append]
  exact (h₁ l (u ++ rest) p).trans (h₂ _ rest p)

/-! ## Single steps -/

/-- What is not the end of a block is the start of a statement. -/
theorem step_of_ne (outer : List OpenBlock) (done : List (Stmt Unit)) {t : Token}
    (h₁ : t.lexeme ≠ .keyword .endK)
    (h₂ : t.lexeme ≠ .keyword .elseK) (l : Pos) (ts : List Token) (p : Pos) :
    ParseState.step ⟨⟨l, t :: ts, .eof p⟩, outer, done⟩ =
      attempt .start ⟨l, t :: ts, .eof p⟩ outer done fun start r =>
        match start with
        | .whole s => finish s r outer done
        | .opening o => .go [] ⟨r, ⟨o, done⟩ :: outer, []⟩ := by
  obtain ⟨l', q⟩ := t
  cases l' with
  | keyword k =>
    cases k with
    | endK => exact absurd rfl h₁
    | elseK => exact absurd rfl h₂
    | _ => rfl
  | _ => rfl

/-- The fault after which a step recovers is the first one. -/
theorem head?_faults_of_recover {s : ParseState} {f : Located SyntaxFault} {r : Reader}
    (h : s.step = recover f r outer done) : s.faults.head? = some f := by
  unfold recover at h
  cases hr : r.skipStatement with
  | resumed next =>
    rw [hr] at h
    rw [(leads_of_go h).faults]
    rfl
  | ended pos =>
    rw [hr] at h
    rw [faults_of_halt h]
    rfl
  | broken rejection =>
    rw [hr] at h
    rw [faults_of_halt h]
    rfl

/-- A step that completes some tokens goes on after them, or parentheses are nested too
    deeply. -/
theorem step_or_deep {α : Type} {x : Reading α} {w rest : List Token} {next : Item} {a : α}
    {k : α → Reader → Step} {l p : Pos} {s : ParseState} (hx : x.Completes w next a)
    (hs : s.step = attempt x ⟨l, w ++ rest, .eof p⟩ outer done k)
    (h : Item.first rest (.eof p) = next) :
    s.step = k a ⟨Token.lastPos l w, rest, .eof p⟩ ∨
      ∃ pos, s.faults.head? = some ⟨.nestedTooDeeply, pos⟩ := by
  unfold attempt at hs
  rcases hx l rest p h with hx | ⟨q, r, hx⟩
  · rw [hx] at hs
    exact Or.inl hs
  · rw [hx] at hs
    exact Or.inr ⟨q, head?_faults_of_recover hs⟩

/-- Parsing comes over a statement without blocks, and its semicolon. -/
theorem comes_simple (s : Derivation.Stmt) (hs : s.isSimple) (q : Pos) :
    Comes outer done (s.tokens ++ [Symbol.token .semicolon q]) outer (s.tree :: done) := by
  intro l rest p
  obtain ⟨t, ts, ht, h₁, h₂⟩ := s.exists_cons_tokens
  rw [List.append_assoc, Token.lastPos_append]
  have hstep := step_of_ne outer done h₁ h₂ l
    (ts ++ ([Symbol.token .semicolon q] ++ rest)) p
  rw [← List.cons_append, ← ht] at hstep
  have hs : Reading.start.Completes s.tokens (.token (Symbol.token .semicolon q)) _ :=
    Reading.completes_stmt s hs rfl nofun
  -- What is taken is followed by the semicolon, so the statement is finished without a fault.
  rcases step_or_deep hs hstep rfl with h | h
  · obtain ⟨notes, hgo, hnotes⟩ := finish_semicolon
    exact Or.inl (hnotes ▸ leads_of_go (h.trans hgo))
  · exact Or.inr h

/-- Parsing comes over what opens a block. -/
theorem comes_opener {w : List Token} {o : Opener}
    (ho : ∀ next, Reading.start.Completes w next (.opening o))
    (hw : ∃ t ts, w = t :: ts ∧ t.lexeme ≠ .keyword .endK ∧ t.lexeme ≠ .keyword .elseK) :
    Comes outer done w (⟨o, done⟩ :: outer) [] := by
  intro l rest p
  obtain ⟨t, ts, ht, h₁, h₂⟩ := hw
  have hstep := step_of_ne outer done h₁ h₂ l (ts ++ rest) p
  rw [← List.cons_append, ← ht] at hstep
  rcases step_or_deep (ho _) hstep rfl with h | h
  · exact Or.inl (leads_of_go h)
  · exact Or.inr h

/-- Parsing comes from the first block of a branch to the second one. -/
theorem comes_else (p₁ : Pos) (c : Expr Unit) (q : Pos) :
    Comes (⟨.ifThen p₁ c, before⟩ :: outer) done [Keyword.token .elseK q]
      (⟨.ifElse p₁ c done.reverse, before⟩ :: outer) [] := by
  intro l rest p
  have hstep : step ⟨⟨l, [Keyword.token .elseK q] ++ rest, .eof p⟩,
      ⟨.ifThen p₁ c, before⟩ :: outer, done⟩ = .go [] _ :=
    attempt_of_takes (Reading.takes_keyword .elseK q _) rfl
  exact Or.inl (leads_of_go hstep)

/-- Parsing comes over the end of a block, and its semicolon. -/
theorem comes_closing (o : Opener) (q₁ q₂ q : Pos) :
    Comes (⟨o, before⟩ :: outer) done
      [Keyword.token .endK q₁, o.keyword.token q₂, Symbol.token .semicolon q] outer
      (o.close done.reverse :: before) := by
  intro l rest p
  have hstep : ParseState.step ⟨⟨l, [Keyword.token .endK q₁, o.keyword.token q₂] ++
      Symbol.token .semicolon q :: rest, .eof p⟩, ⟨o, before⟩ :: outer, done⟩ = _ :=
    attempt_of_takes (Reading.takes_closing o q₁ q₂ _) rfl
  obtain ⟨notes, hgo, hnotes⟩ := finish_semicolon
  exact Or.inl (hnotes ▸ leads_of_go (hstep.trans hgo))

/-- Parsing comes over what opens a block, the block and its end. -/
theorem comes_close (o : Derivation.Opener) (b : Derivation.Block) (q₁ q₂ q : Pos)
    (ho : Comes outer done o.tokens (⟨o.tree, done⟩ :: outer) [])
    (hb : Comes (⟨o.tree, done⟩ :: outer) [] b.tokens (⟨o.tree, done⟩ :: outer)
      (b.tree.reverse ++ [])) :
    Comes outer done ((o.close b q₁ q₂).tokens ++ [Symbol.token .semicolon q]) outer
      ((o.close b q₁ q₂).tree :: done) := by
  have h := (ho.trans hb).trans (comes_closing o.tree q₁ q₂ q)
  rw [List.append_nil, List.reverse_reverse, ← o.tree_close b q₁ q₂] at h
  rwa [o.tokens_close, List.append_assoc _ _ [_]]

/-! ## Whole derivations -/

mutual

/-- Parsing comes over a statement, and its semicolon. -/
theorem comes_stmt (outer : List OpenBlock) (done : List (Stmt Unit)) (q : Pos) :
    (s : Derivation.Stmt) →
      Comes outer done (s.tokens ++ [Symbol.token .semicolon q]) outer (s.tree :: done)
  | .forLoop p₁ p x p₂ a p₃ b p₄ body p₅ p₆ =>
    comes_close (.forLoop p₁ p x p₂ a p₃ b p₄) body p₅ p₆ q
      (comes_opener (Reading.completes_forLoop p₁ p x p₂ a p₃ b p₄) ⟨_, _, rfl, nofun, nofun⟩)
      (comes_block _ _ body)
  | .ifThen p c p₁ body p₂ p₃ =>
    comes_close (.ifThen p c p₁) body p₂ p₃ q
      (comes_opener (Reading.completes_ifThen p c p₁) ⟨_, _, rfl, nofun, nofun⟩)
      (comes_block _ _ body)
  | .ifElse p c p₁ body p₂ otherwise p₃ p₄ => by
    -- The first block is part of what opens the second one.
    have hopen : Comes outer done (Derivation.Opener.ifThen p c p₁).tokens _ _ :=
      comes_opener (Reading.completes_ifThen p c p₁) ⟨_, _, rfl, nofun, nofun⟩
    have helse := (hopen.trans (comes_block _ _ body)).trans (comes_else p c.tree p₂)
    rw [List.append_nil, List.reverse_reverse] at helse
    exact comes_close (.ifElse p c p₁ body p₂) otherwise p₃ p₄ q helse (comes_block _ _ otherwise)
  | .declare p₁ p x p₂ p₃ ty => comes_simple (.declare p₁ p x p₂ p₃ ty) rfl q
  | .declareInit p₁ p x p₂ p₃ ty p₄ e => comes_simple (.declareInit p₁ p x p₂ p₃ ty p₄ e) rfl q
  | .assign p x p₁ e => comes_simple (.assign p x p₁ e) rfl q
  | .print p e => comes_simple (.print p e) rfl q
  | .read p₁ p x => comes_simple (.read p₁ p x) rfl q
  | .assert p p₁ c p₂ => comes_simple (.assert p p₁ c p₂) rfl q

/-- Parsing comes over a block. -/
theorem comes_block (outer : List OpenBlock) (done : List (Stmt Unit)) :
    (b : Derivation.Block) → Comes outer done b.tokens outer (b.tree.reverse ++ done)
  | .nil => comes_nil outer done
  | .cons s q rest => by
    have h := (comes_stmt outer done q s).trans (comes_block _ _ rest)
    rw [Derivation.Block.tree, List.reverse_cons, List.append_assoc]
    exact h

end

/-- The tokens of a program are parsed, unless parentheses are nested too deeply. -/
theorem complete_or_deep (d : Derivation.Block) (p : Pos) :
    ((ofStream ⟨d.tokens, .eof p⟩).faults = [] ∧
      (ofStream ⟨d.tokens, .eof p⟩).run.2 = .complete d.tree) ∨
    ∃ pos, (ofStream ⟨d.tokens, .eof p⟩).faults.head? = some ⟨.nestedTooDeeply, pos⟩ := by
  -- A program is a block outside all blocks, with nothing after it.
  have h := comes_block [] [] d .start [] p
  rw [List.append_nil, List.append_nil] at h
  rcases h with h | h
  · refine Or.inl ⟨?_, ?_⟩
    · exact h.faults.trans faults_of_eof
    · refine h.ending.trans ?_
      rw [run_of_eof, List.reverse_reverse]
  · exact Or.inr h

end ParseState

end MiniPL
