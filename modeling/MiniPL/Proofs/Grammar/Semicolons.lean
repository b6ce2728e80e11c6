import MiniPL.Proofs.Grammar.Complete
import MiniPL.Proofs.Grammar.Prefix
import MiniPL.Proofs.Grammar.Thinning

/-!
# Missing semicolons

If some semicolons of a program are left out, parsing notes each of them where it is missing,
after the last token of its statement, and goes on as if it were there. For what may follow a
statement then, the next one or the end of a block, cannot be part of it (`Item.Bounds`). So
parsing *goes* over the tokens that are left (`ParseState.Goes`), with the faults of the
semicolons that are not there (`Token.missing`), by induction on the derivation of the program.
-/

namespace MiniPL

/-! ## What ends a statement -/

/-- An item that cannot be part of a statement that comes before it. -/
structure Item.Bounds (i : Item) : Prop where
  operator : i.operator? = none
  ne_assign : i.kind ≠ .symbol .assign
  ne_open : i.kind ≠ .symbol .openParen

/-- An item that may come after a statement of which the semicolon is missing. -/
structure Item.Follows (i : Item) : Prop extends i.Bounds where
  ne_semicolon : i.kind ≠ .symbol .semicolon

theorem Item.bounds_semicolon (p : Pos) : (token (Symbol.token .semicolon p)).Bounds :=
  ⟨rfl, nofun, nofun⟩

theorem Item.follows_keyword (k : Keyword) (p : Pos) : (token (k.token p)).Follows :=
  ⟨⟨rfl, nofun, nofun⟩, nofun⟩

/-- A statement may follow another one. -/
theorem Derivation.Stmt.exists_first (s : Derivation.Stmt) :
    ∃ t ts, s.tokens = t :: ts ∧ (Item.token t).Follows := by
  cases s <;> exact ⟨_, _, rfl, ⟨rfl, nofun, nofun⟩, nofun⟩

/-- What is left of a block may follow a statement, if that is so of what comes after it. -/
theorem Derivation.Block.follows_first (b : Derivation.Block) (drop : Nat → Bool) {next : Item}
    (hn : next.Follows) : (Item.first (Token.thin drop b.tokens) next).Follows := by
  cases b with
  | nil => exact hn
  | cons s q rest =>
    obtain ⟨t, ts, ht, hfollows⟩ := s.exists_first
    have hne : ¬ (t.lexeme = .symbol .semicolon ∧ drop 0) :=
      fun h => hfollows.ne_semicolon (congrArg Lexeme.kind h.1)
    rw [Derivation.Block.tokens, ht, List.append_assoc, List.cons_append, Token.thin, if_neg hne]
    exact hfollows

namespace Reading

variable {α : Type} {x : Reading α} {L : α → List Token → Prop} {w : List Token} {next : Item}
  {a : α}

/-- What is completed is taken if it does not nest too deeply. -/
theorem Completes.takes (hc : x.Completes w next a) (hr : x.Reads L (nestingLimit + 1))
    (hn : next.kind ≠ .symbol .openParen) (hw : Token.nesting w ≤ nestingLimit) :
    x.Takes w next (.ok a) := by
  -- A shortest stream on which the next item is the right one does not nest deeper.
  obtain ⟨rest, p, hfirst, hdeep⟩ : ∃ rest p, Item.first rest (.eof p) = next ∧
      Token.nesting (w ++ rest) ≤ nestingLimit := by
    cases next with
    | token t =>
      refine ⟨[t], .start, rfl, ?_⟩
      rwa [Token.nesting_append_singleton fun h => hn (congrArg Lexeme.kind h)]
    | eof p => exact ⟨[], p, rfl, by rwa [List.append_nil]⟩
  obtain ⟨w', rest', o, heq, ht, -, ho⟩ := hr.readsAt (w ++ rest) p
  have hx := ht .start rest' p rfl
  rw [← heq] at hx
  rcases hc .start rest p hfirst with hread | ⟨q, r, hrefused⟩
  · rw [hread] at hx
    cases o with
    | error f => cases hx
    | ok a' =>
      simp only [Outcome.of, Outcome.read.injEq, Reader.mk.injEq] at hx
      obtain ⟨rfl, -, rfl, -⟩ := hx
      rw [List.append_cancel_right heq, ← hfirst]
      exact ht
  · rw [hrefused] at hx
    cases o with
    | ok a' => cases hx
    | error f =>
      cases hx
      cases ho with
      | fault hf h => cases hf
      | deep h =>
        have := Nat.le_trans (h 0) (Token.foldl_parens_le_nestingFrom 0 w' rest')
        rw [← heq] at this
        exact absurd hdeep (by unfold Token.nesting; omega)

end Reading

/-! ## Going over what is left -/

namespace ParseState

open Token (thin missing)

/-- Parsing goes over the tokens `w` with the faults `fs` to other open blocks, if `next` is the
    item after them. -/
def Goes (outer : List OpenBlock) (done : List (Stmt Unit)) (w : List Token)
    (fs : List (Located SyntaxFault)) (next : Item) (outer' : List OpenBlock)
    (done' : List (Stmt Unit)) : Prop :=
  ∀ l rest p, Item.first rest (.eof p) = next →
    Leads fs ⟨⟨l, w ++ rest, .eof p⟩, outer, done⟩
      ⟨⟨Token.lastPos l w, rest, .eof p⟩, outer', done'⟩

/-- Parsing goes over the tokens `w` with the faults `fs`, up to where a step finishes the
    statement `s`, if `next` is the item after them. -/
def Finishes (outer : List OpenBlock) (done : List (Stmt Unit)) (w : List Token)
    (fs : List (Located SyntaxFault)) (next : Item) (s : Stmt Unit) : Prop :=
  ∀ l rest p, Item.first rest (.eof p) = next →
    ∃ q, Leads fs ⟨⟨l, w ++ rest, .eof p⟩, outer, done⟩ q ∧
      q.step = finish s ⟨Token.lastPos l w, rest, .eof p⟩ outer done

variable {outer outer₁ outer₂ : List OpenBlock} {done done₁ done₂ : List (Stmt Unit)}
  {w u : List Token} {fs gs : List (Located SyntaxFault)} {next : Item} {s : Stmt Unit}

theorem goes_nil (outer : List OpenBlock) (done : List (Stmt Unit)) (next : Item) :
    Goes outer done [] [] next outer done :=
  fun _ _ _ _ => ⟨rfl, rfl⟩

theorem Goes.trans (h₁ : Goes outer done w fs (Item.first u next) outer₁ done₁)
    (h₂ : Goes outer₁ done₁ u gs next outer₂ done₂) :
    Goes outer done (w ++ u) (fs ++ gs) next outer₂ done₂ := by
  intro l rest p h
  rw [List.append_assoc, Token.lastPos_append]
  exact (h₁ l (u ++ rest) p (by rw [Item.first_append, h])).trans (h₂ _ rest p h)

/-- The semicolon after a statement is there. -/
theorem Finishes.semicolon {q : Pos}
    (h : Finishes outer done w fs (.token (Symbol.token .semicolon q)) s) (next : Item) :
    Goes outer done (w ++ [Symbol.token .semicolon q]) fs next outer (s :: done) := by
  intro l rest p _
  obtain ⟨r, hleads, hstep⟩ := h l (Symbol.token .semicolon q :: rest) p rfl
  obtain ⟨notes, hgo, hnotes⟩ := finish_semicolon
  have hr : Leads [] r _ := hnotes ▸ leads_of_go (hstep.trans hgo)
  have h := hleads.trans hr
  rw [List.append_nil] at h
  rwa [List.append_assoc, Token.lastPos_append]

/-- The semicolon after a statement is missing. -/
theorem Finishes.missing (h : Finishes outer done w fs next s) (hw : w ≠ [])
    (hs : next.kind ≠ .symbol .semicolon) (l' : Pos) :
    Goes outer done w (fs ++ [⟨.missingSemicolon, Token.lastPos l' w⟩]) next outer
      (s :: done) := by
  intro l rest p hnext
  obtain ⟨r, hleads, hstep⟩ := h l rest p hnext
  obtain ⟨notes, hgo, hnotes⟩ := finish_missing (hnext ▸ hs)
  have hr : Leads [⟨.missingSemicolon, Token.lastPos l w⟩] r _ :=
    hnotes ▸ leads_of_go (hstep.trans hgo)
  rw [Token.lastPos_eq hw l' l]
  exact hleads.trans hr

/-! ### Single steps -/

/-- A statement without blocks is finished by one step. -/
theorem finishes_simple (d : Derivation.Stmt) (hd : d.isSimple) (hn : next.Bounds)
    (hdeep : Token.nesting d.tokens ≤ Reading.nestingLimit) :
    Finishes outer done d.tokens [] next d.tree := by
  intro l rest p h
  obtain ⟨t, ts, ht, h₁, h₂⟩ := d.exists_cons_tokens
  have htakes := (Reading.completes_stmt d hd hn.operator hn.ne_assign).takes Reading.reads_start
    hn.ne_open hdeep
  refine ⟨_, ⟨rfl, rfl⟩, ?_⟩
  have hstep := step_of_ne outer done h₁ h₂ l (ts ++ rest) p
  rw [← List.cons_append, ← ht] at hstep
  exact hstep.trans (attempt_of_takes htakes h)

/-- A step goes over what opens a block. -/
theorem goes_opener {o : Opener} (ho : Reading.start.Completes w next (.opening o))
    (hw : ∃ t ts, w = t :: ts ∧ t.lexeme ≠ .keyword .endK ∧ t.lexeme ≠ .keyword .elseK)
    (hn : next.Bounds) (hdeep : Token.nesting w ≤ Reading.nestingLimit) :
    Goes outer done w [] next (⟨o, done⟩ :: outer) [] := by
  intro l rest p h
  obtain ⟨t, ts, ht, h₁, h₂⟩ := hw
  have htakes := ho.takes Reading.reads_start hn.ne_open hdeep
  have hstep := step_of_ne outer done h₁ h₂ l (ts ++ rest) p
  rw [← List.cons_append, ← ht] at hstep
  exact leads_of_go (hstep.trans (attempt_of_takes htakes h))

/-- A step goes from the first block of a branch to the second one. -/
theorem goes_else (p₁ : Pos) (c : Expr Unit) (before : List (Stmt Unit)) (q : Pos) (next : Item) :
    Goes (⟨.ifThen p₁ c, before⟩ :: outer) done [Keyword.token .elseK q] [] next
      (⟨.ifElse p₁ c done.reverse, before⟩ :: outer) [] := by
  intro l rest p h
  have hstep : step ⟨⟨l, [Keyword.token .elseK q] ++ rest, .eof p⟩,
      ⟨.ifThen p₁ c, before⟩ :: outer, done⟩ = .go [] _ :=
    attempt_of_takes (Reading.takes_keyword .elseK q _) rfl
  exact leads_of_go hstep

/-- The end of a block finishes the statement that it belongs to. -/
theorem Goes.finishes {o : Opener} {q₁ : Pos}
    (h : Goes outer done w fs (.token (Keyword.token .endK q₁)) (⟨o, done⟩ :: outer) done₁)
    (q₂ : Pos) (next : Item) :
    Finishes outer done (w ++ [Keyword.token .endK q₁, o.keyword.token q₂]) fs next
      (o.close done₁.reverse) := by
  intro l rest p _
  have hw := h l ([Keyword.token .endK q₁, o.keyword.token q₂] ++ rest) p rfl
  rw [← List.append_assoc] at hw
  refine ⟨_, hw, ?_⟩
  rw [Token.lastPos_append]
  exact attempt_of_takes (Reading.takes_closing o q₁ q₂ _) rfl

/-! ### Whole derivations -/

section

variable {drop : Nat → Bool} {l : Pos} {o : Opener} {b : Derivation.Block}

/-- After what is left of the tokens `u`, which open a block, parsing goes over what is left of
    the block, up to a keyword. -/
theorem goes_inside {k : Keyword} {q : Pos}
    (hu : ∀ next : Item, next.Follows →
      Goes outer done (thin drop u) (missing drop l u) next (⟨o, done⟩ :: outer) [])
    (hb : ∀ drop l, Goes (⟨o, done⟩ :: outer) [] (thin drop b.tokens) (missing drop l b.tokens)
      (.token (k.token q)) (⟨o, done⟩ :: outer) (b.tree.reverse ++ [])) :
    Goes outer done (thin drop (u ++ b.tokens)) (missing drop l (u ++ b.tokens))
      (.token (k.token q)) (⟨o, done⟩ :: outer) b.tree.reverse := by
  rw [Token.thin_append, Token.missing_append, ← List.append_nil b.tree.reverse]
  exact (hu _ (b.follows_first _ (Item.follows_keyword k q))).trans (hb _ _)

/-- Then it finishes the statement at the end of the block. -/
theorem finishes_close {q₁ q₂ : Pos} (next : Item)
    (h : Goes outer done (thin drop w) (missing drop l w) (.token (Keyword.token .endK q₁))
      (⟨o, done⟩ :: outer) b.tree.reverse) :
    let w' := w ++ [Keyword.token .endK q₁, o.keyword.token q₂]
    Finishes outer done (thin drop w') (missing drop l w') next (o.close b.tree) := by
  intro w'
  have hend : ∀ t ∈ [Keyword.token .endK q₁, o.keyword.token q₂],
      t.lexeme ≠ .symbol .semicolon := by simp
  have h := h.finishes q₂ next
  rw [List.reverse_reverse] at h
  rwa [Token.thin_append, Token.missing_append, Token.thin_of_ne hend, Token.missing_of_ne hend,
    List.append_nil]

/-- Or it goes on in the second block of a branch. -/
theorem goes_thin_else {p : Pos} {c : Expr Unit} {q : Pos}
    (h : Goes outer done (thin drop w) (missing drop l w) (.token (Keyword.token .elseK q))
      (⟨.ifThen p c, done⟩ :: outer) b.tree.reverse) (next : Item) :
    let w' := w ++ [Keyword.token .elseK q]
    Goes outer done (thin drop w') (missing drop l w') next (⟨.ifElse p c b.tree, done⟩ :: outer)
      [] := by
  intro w'
  have helse : ∀ t ∈ [Keyword.token .elseK q], t.lexeme ≠ .symbol .semicolon := by simp
  have h := h.trans (goes_else p c done q next)
  rw [List.reverse_reverse] at h
  rwa [Token.thin_append, Token.missing_append, Token.thin_of_ne helse, Token.missing_of_ne helse]

end

/-- What opens a block has no semicolons to leave out. -/
theorem goes_thin_opener {drop : Nat → Bool} {l : Pos} {o : Opener}
    (ho : ∀ next, Reading.start.Completes w next (.opening o))
    (hw : ∃ t ts, w = t :: ts ∧ t.lexeme ≠ .keyword .endK ∧ t.lexeme ≠ .keyword .elseK)
    (hne : ∀ t ∈ w, t.lexeme ≠ .symbol .semicolon)
    (hdeep : Token.nesting w ≤ Reading.nestingLimit) (next : Item) (hn : next.Follows) :
    Goes outer done (thin drop w) (missing drop l w) next (⟨o, done⟩ :: outer) [] := by
  rw [Token.thin_of_ne hne, Token.missing_of_ne hne]
  exact goes_opener (ho next) hw hn.toBounds hdeep

/-- A statement without blocks has no semicolons to leave out. -/
theorem finishes_thin_simple (d : Derivation.Stmt) (hd : d.isSimple) (drop : Nat → Bool) (l : Pos)
    (hn : next.Bounds) (hdeep : Token.nesting d.tokens ≤ Reading.nestingLimit) :
    Finishes outer done (thin drop d.tokens) (missing drop l d.tokens) next d.tree := by
  rw [Token.thin_of_ne (d.ne_semicolon hd), Token.missing_of_ne (d.ne_semicolon hd)]
  exact finishes_simple d hd hn hdeep

mutual

/-- Parsing finishes what is left of a statement. -/
theorem finishes_stmt (outer : List OpenBlock) (done : List (Stmt Unit)) (drop : Nat → Bool)
    (l : Pos) (next : Item) (hn : next.Bounds) : (s : Derivation.Stmt) →
      Token.nesting s.tokens ≤ Reading.nestingLimit →
      Finishes outer done (thin drop s.tokens) (missing drop l s.tokens) next s.tree
  | .forLoop p₁ p x p₂ a p₃ b p₄ body p₅ p₆, hdeep => by
    let o := Derivation.Opener.forLoop p₁ p x p₂ a p₃ b p₄
    have hdeep := Nat.le_trans (Token.nesting_le_append (o.tokens ++ body.tokens) _) hdeep
    have hopen := Nat.le_trans (Token.nesting_le_append o.tokens _) hdeep
    have hbody := Nat.le_trans
      (Token.nesting_le_append_of_closed (Derivation.Opener.parens_forLoop ..) _) hdeep
    exact finishes_close next (goes_inside
      (goes_thin_opener (Reading.completes_forLoop p₁ p x p₂ a p₃ b p₄) ⟨_, _, rfl, nofun, nofun⟩
        (Derivation.Opener.ne_semicolon_forLoop p₁ p x p₂ a p₃ b p₄) hopen)
      fun drop l => goes_block _ _ drop l _ (Item.follows_keyword .endK p₅) body hbody)
  | .ifThen p c p₁ body p₂ p₃, hdeep => by
    let o := Derivation.Opener.ifThen p c p₁
    have hdeep := Nat.le_trans (Token.nesting_le_append (o.tokens ++ body.tokens) _) hdeep
    have hopen := Nat.le_trans (Token.nesting_le_append o.tokens _) hdeep
    have hbody := Nat.le_trans
      (Token.nesting_le_append_of_closed (Derivation.Opener.parens_ifThen ..) _) hdeep
    exact finishes_close next (goes_inside
      (goes_thin_opener (Reading.completes_ifThen p c p₁) ⟨_, _, rfl, nofun, nofun⟩
        (Derivation.Opener.ne_semicolon_ifThen p c p₁) hopen)
      fun drop l => goes_block _ _ drop l _ (Item.follows_keyword .endK p₂) body hbody)
  | .ifElse p c p₁ body p₂ otherwise p₃ p₄, hdeep => by
    let o := Derivation.Opener.ifThen p c p₁
    let w := o.tokens ++ body.tokens ++ [Keyword.token .elseK p₂]
    have hdeep := Nat.le_trans (Token.nesting_le_append (w ++ otherwise.tokens) _) hdeep
    have hfirst := Nat.le_trans (Token.nesting_le_append (o.tokens ++ body.tokens) _)
      (Nat.le_trans (Token.nesting_le_append w _) hdeep)
    have hopen := Nat.le_trans (Token.nesting_le_append o.tokens _) hfirst
    have hbody := Nat.le_trans
      (Token.nesting_le_append_of_closed (Derivation.Opener.parens_ifThen ..) _) hfirst
    have hotherwise : Token.nesting otherwise.tokens ≤ Reading.nestingLimit := by
      refine Nat.le_trans (Token.nesting_le_append_of_closed ?_ _) hdeep
      rw [List.foldl_append, List.foldl_append, Derivation.Opener.parens_ifThen,
        Derivation.Block.parens_tokens]
      rfl
    exact finishes_close next (goes_inside
      (fun next _ => goes_thin_else (goes_inside
        (goes_thin_opener (Reading.completes_ifThen p c p₁) ⟨_, _, rfl, nofun, nofun⟩
          (Derivation.Opener.ne_semicolon_ifThen p c p₁) hopen)
        fun drop l => goes_block _ _ drop l _ (Item.follows_keyword .elseK p₂) body hbody) next)
      fun drop l => goes_block _ _ drop l _ (Item.follows_keyword .endK p₃) otherwise hotherwise)
  | .declare p₁ p x p₂ p₃ ty, hdeep =>
    finishes_thin_simple (.declare p₁ p x p₂ p₃ ty) rfl drop l hn hdeep
  | .declareInit p₁ p x p₂ p₃ ty p₄ e, hdeep =>
    finishes_thin_simple (.declareInit p₁ p x p₂ p₃ ty p₄ e) rfl drop l hn hdeep
  | .assign p x p₁ e, hdeep => finishes_thin_simple (.assign p x p₁ e) rfl drop l hn hdeep
  | .print p e, hdeep => finishes_thin_simple (.print p e) rfl drop l hn hdeep
  | .read p₁ p x, hdeep => finishes_thin_simple (.read p₁ p x) rfl drop l hn hdeep
  | .assert p p₁ c p₂, hdeep => finishes_thin_simple (.assert p p₁ c p₂) rfl drop l hn hdeep

/-- Parsing goes over what is left of a block. -/
theorem goes_block (outer : List OpenBlock) (done : List (Stmt Unit)) (drop : Nat → Bool)
    (l : Pos) (next : Item) (hn : next.Follows) : (b : Derivation.Block) →
      Token.nesting b.tokens ≤ Reading.nestingLimit →
      Goes outer done (thin drop b.tokens) (missing drop l b.tokens) next outer
        (b.tree.reverse ++ done)
  | .nil, _ => goes_nil outer done next
  | .cons s q rest, hdeep => by
    have hs : Token.nesting s.tokens ≤ Reading.nestingLimit := by
      rw [Derivation.Block.tokens, List.append_assoc] at hdeep
      exact Nat.le_trans (Token.nesting_le_append _ _) hdeep
    have hrest : Token.nesting rest.tokens ≤ Reading.nestingLimit := by
      refine Nat.le_trans (Token.nesting_le_append_of_closed ?_ _) hdeep
      exact List.foldl_append
    -- What is parsed after the semicolon, or where it is missing, is the same.
    have hblock (l : Pos) := goes_block outer (s.tree :: done)
      (fun i => drop ((s.tokens ++ [Symbol.token .semicolon q]).length + i)) l next hn rest hrest
    rw [Derivation.Block.tree, List.reverse_cons, List.append_assoc, Derivation.Block.tokens,
      Token.thin_append, Token.missing_append]
    refine Goes.trans ?_ (hblock _)
    rw [Token.thin_append, Token.missing_append]
    obtain ⟨hne, hlast⟩ := s.lastPos_thin drop l
    by_cases hd : drop s.tokens.length
    · have hfollows := rest.follows_first
        (fun i => drop ((s.tokens ++ [Symbol.token .semicolon q]).length + i)) hn
      have h := (finishes_stmt outer done drop l _ hfollows.toBounds s hs).missing hne
        hfollows.ne_semicolon l
      rw [hlast] at h
      simpa [thin, missing, hd] using h
    · have h := (finishes_stmt outer done drop l _ (Item.bounds_semicolon q) s hs).semicolon
        (Item.first (thin (fun i => drop ((s.tokens ++ [Symbol.token .semicolon q]).length + i))
          rest.tokens) next)
      simpa [thin, missing, hd] using h

end

end ParseState

/-! ## Where statements end -/

namespace Derivation

/-- Where there are semicolons in the tokens `w` after `u`, a statement ends before them. -/
def Closes (u w : List Token) : Prop :=
  ∀ v q v', w = v ++ Symbol.token .semicolon q :: v' → EndsStatement (u ++ v)

variable {u w w' : List Token}

theorem closes_of_ne (h : ∀ t ∈ w, t.lexeme ≠ .symbol .semicolon) : Closes u w := by
  rintro v q v' rfl
  exact absurd rfl (h (Symbol.token .semicolon q) (by simp))

theorem closes_singleton (h : EndsStatement u) (q : Pos) :
    Closes u [Symbol.token .semicolon q] := by
  intro v q' v' heq
  cases v with
  | nil => rwa [List.append_nil]
  | cons t v => simp at heq

theorem Closes.append (h : Closes u w) (h' : Closes (u ++ w) w') : Closes u (w ++ w') := by
  intro v q v' heq
  rcases List.append_eq_append_iff.1 heq with ⟨v₁, rfl, hw⟩ | ⟨v₁, hw, hw'⟩
  · rw [← List.append_assoc]
    exact h' v₁ q v' hw
  · cases v₁ with
    | nil =>
      rw [List.append_nil] at hw
      have hends := h' [] q v' hw'.symm
      rwa [List.append_nil, hw] at hends
    | cons t v₁ =>
      obtain ⟨rfl, -⟩ := List.cons.inj hw'
      exact h v q v₁ hw

/-- So it is in a statement, if it is in its block. -/
theorem closes_close (o : Opener) {b : Block} {q₁ q₂ : Pos} (hu : Closes u o.tokens)
    (hb : Closes (u ++ o.tokens) b.tokens) : Closes u (o.close b q₁ q₂).tokens := by
  rw [o.tokens_close]
  exact (hu.append hb).append (closes_of_ne (by simp))

mutual

theorem closes_stmt {u : List Token} {outer : List OpenBlock} {done : List (MiniPL.Stmt Unit)}
    (h : Opens u outer done) : (s : Stmt) → Closes u s.tokens
  | .forLoop p₁ p x p₂ a p₃ b p₄ body p₅ p₆ =>
    closes_close (.forLoop p₁ p x p₂ a p₃ b p₄)
      (closes_of_ne (Opener.ne_semicolon_forLoop p₁ p x p₂ a p₃ b p₄))
      (closes_block (h.enter (.forLoop p₁ p x p₂ a p₃ b p₄)) body)
  | .ifThen p c p₁ body p₂ p₃ =>
    closes_close (.ifThen p c p₁) (closes_of_ne (Opener.ne_semicolon_ifThen p c p₁))
      (closes_block (h.enter (.ifThen p c p₁)) body)
  | .ifElse p c p₁ body p₂ otherwise p₃ p₄ => by
    have hfirst : Closes u (Opener.ifThen p c p₁).tokens :=
      closes_of_ne (Opener.ne_semicolon_ifThen p c p₁)
    have hopen : Closes u (Opener.ifElse p c p₁ body p₂).tokens :=
      (hfirst.append (closes_block (h.enter (.ifThen p c p₁)) body)).append
        (closes_of_ne (by simp))
    exact closes_close (.ifElse p c p₁ body p₂) hopen
      (closes_block (h.enter (.ifElse p c p₁ body p₂)) otherwise)
  | .declare p₁ p x p₂ p₃ ty => closes_of_ne (Stmt.ne_semicolon (.declare p₁ p x p₂ p₃ ty) rfl)
  | .declareInit p₁ p x p₂ p₃ ty p₄ e =>
    closes_of_ne (Stmt.ne_semicolon (.declareInit p₁ p x p₂ p₃ ty p₄ e) rfl)
  | .assign p x p₁ e => closes_of_ne (Stmt.ne_semicolon (.assign p x p₁ e) rfl)
  | .print p e => closes_of_ne (Stmt.ne_semicolon (.print p e) rfl)
  | .read p₁ p x => closes_of_ne (Stmt.ne_semicolon (.read p₁ p x) rfl)
  | .assert p p₁ c p₂ => closes_of_ne (Stmt.ne_semicolon (.assert p p₁ c p₂) rfl)

/-- In a block, semicolons stand where statements end. -/
theorem closes_block {u : List Token} {outer : List OpenBlock} {done : List (MiniPL.Stmt Unit)}
    (h : Opens u outer done) : (b : Block) → Closes u b.tokens
  | .nil => closes_of_ne nofun
  | .cons s q rest => by
    have hrest := closes_block (h.snoc s q) rest
    rw [List.append_assoc] at hrest
    exact ((closes_stmt h s).append (closes_singleton (h.endsStatement s) q)).append hrest

end

end Derivation

end MiniPL
