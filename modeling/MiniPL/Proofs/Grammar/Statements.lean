import MiniPL.Proofs.Grammar.Expressions

/-!
# Reading statements

The language of the reading of what statements start with are the tokens of the derivations of
statements without blocks, and of what opens a block (`Reading.reads_start`). The tokens of
such derivations are taken, unless they nest too deeply (`Reading.completes_stmt`,
`Reading.completes_forLoop`, `Reading.completes_ifThen`).
-/

namespace MiniPL

/-- The tokens of the derivations that describe what a statement starts with. -/
def Start.Derives : Start → List Token → Prop
  | whole s, w => ∃ d : Derivation.Stmt, d.tree = s ∧ d.tokens = w
  | opening o, w => ∃ d : Derivation.Opener, d.tree = o ∧ d.tokens = w

namespace Reading

/-! ## What is read is derived -/

theorem reads_declaration : declaration.Reads Start.Derives (nestingLimit + 1) := by
  refine .keyword_bind fun p₁ => ?_
  refine .name_bind fun p x => ?_
  refine .symbol_bind nofun nofun fun p₂ => ?_
  refine .type_bind fun ty p₃ => ?_
  have hd : Start.Derives (.whole (.declare p x ty none)) [Keyword.token .varK p₁, .ofName x p,
      Symbol.token .colon p₂, ty.keyword.token p₃] := ⟨.declare p₁ p x p₂ p₃ ty, rfl, rfl⟩
  -- The declaration is complete already: an initial value may follow, or anything else.
  refine ⟨⟨_, [], hd⟩, fun ts q => .peek_bind ?_⟩
  split
  · next p₄ hp =>
    obtain ⟨rest, rfl⟩ := Item.exists_cons_of_first hp
    have hinit : (expr >>= fun e => pure (Start.whole (.declare p x ty (some e)))).Reads
        (fun st u => Start.Derives st (Keyword.token .varK p₁ :: .ofName x p ::
          Symbol.token .colon p₂ :: ty.keyword.token p₃ :: Symbol.token .assign p₄ :: u))
        (nestingLimit + 1) := by
      refine reads_expr.map ?_
      rintro _ u ⟨e, rfl, rfl⟩
      exact ⟨.declareInit p₁ p x p₂ p₃ ty p₄ e, rfl, rfl⟩
    exact .advance_bind nofun (fun _ => Nat.le_refl _) (hinit.readsAt rest q)
  · exact readsAt_pure hd

theorem reads_assignment : assignment.Reads Start.Derives (nestingLimit + 1) := by
  refine .name_bind fun p x => ?_
  refine .symbol_bind nofun nofun fun p₁ => ?_
  refine reads_expr.map ?_
  rintro _ w ⟨e, rfl, rfl⟩
  exact ⟨.assign p x p₁ e, rfl, rfl⟩

theorem reads_output : output.Reads Start.Derives (nestingLimit + 1) := by
  refine .keyword_bind fun p => ?_
  refine reads_expr.map ?_
  rintro _ w ⟨e, rfl, rfl⟩
  exact ⟨.print p e, rfl, rfl⟩

theorem reads_input : input.Reads Start.Derives (nestingLimit + 1) := by
  refine .keyword_bind fun p₁ => ?_
  refine reads_name.map ?_
  rintro ⟨p, x⟩ w rfl
  exact ⟨.read p₁ p x, rfl, rfl⟩

theorem reads_assertion : assertion.Reads Start.Derives (nestingLimit + 1) := by
  refine .keyword_bind fun p => ?_
  refine .symbol_bind nofun nofun fun p₁ => ?_
  refine .expr_bind fun c => ?_
  refine (reads_symbol .closeParen nofun).map ?_
  rintro p₂ w rfl
  exact ⟨.assert p p₁ c p₂, rfl, rfl⟩

theorem reads_loopHead : loopHead.Reads Start.Derives (nestingLimit + 1) := by
  refine .keyword_bind fun p₁ => ?_
  refine .name_bind fun p x => ?_
  refine .keyword_bind fun p₂ => ?_
  refine .expr_bind fun a => ?_
  refine .symbol_bind nofun nofun fun p₃ => ?_
  refine .expr_bind fun b => ?_
  refine (reads_keyword .doK).map ?_
  rintro p₄ w rfl
  exact ⟨.forLoop p₁ p x p₂ a p₃ b p₄, rfl, by simp [Derivation.Opener.tokens]⟩

theorem reads_branchHead : branchHead.Reads Start.Derives (nestingLimit + 1) := by
  refine .keyword_bind fun p => ?_
  refine .expr_bind fun c => ?_
  refine (reads_keyword .doK).map ?_
  rintro p₁ w rfl
  exact ⟨.ifThen p c p₁, rfl, rfl⟩

/-- What a statement starts with is read. -/
theorem reads_start : start.Reads Start.Derives (nestingLimit + 1) := by
  have hv : ∃ st w, Start.Derives st w := reads_input.exists_word
  refine ⟨hv, fun ts q => .peek_bind ?_⟩
  split
  · exact reads_declaration.readsAt ts q
  · exact reads_assignment.readsAt ts q
  · exact reads_loopHead.readsAt ts q
  · exact reads_branchHead.readsAt ts q
  · exact reads_output.readsAt ts q
  · exact reads_input.readsAt ts q
  · exact reads_assertion.readsAt ts q
  · exact readsAt_refuse rfl rfl hv

/-- The end of a block is read, with the keyword that belongs to its opener. -/
theorem reads_closing (o : Opener) (depth : Nat) :
    (closing o).Reads
      (fun _ w => ∃ p₁ p₂, w = [Keyword.token .endK p₁, o.keyword.token p₂]) depth := by
  refine .keyword_bind fun p₁ => ?_
  refine (reads_keyword o.keyword).map ?_
  rintro p₂ w rfl
  exact ⟨p₁, p₂, rfl⟩

/-! ## What is derived is read -/

/-- What opens a loop is taken. -/
theorem completes_forLoop (p₁ p : Pos) (x : String) (p₂ : Pos) (a : Derivation.Expr) (p₃ : Pos)
    (b : Derivation.Expr) (p₄ : Pos) (next : Item) :
    start.Completes (Derivation.Opener.forLoop p₁ p x p₂ a p₃ b p₄).tokens next
      (.opening (.forLoop p x a.tree b.tree)) := by
  simp only [Derivation.Opener.tokens, List.append_assoc, List.cons_append, List.nil_append]
  refine Takes.bind_completes (takes_peek _) ?_
  refine (takes_keyword .forK p₁ _).cons_completes ?_
  refine (takes_expectName x p _).cons_completes ?_
  refine (takes_keyword .inK p₂ _).cons_completes ?_
  refine (completes_expr a rfl).bind ?_
  refine (takes_symbol .range p₃ _).cons_completes ?_
  refine (completes_expr b rfl).bind ?_
  exact (takes_keyword .doK p₄ _).map.completes

/-- What opens a branch is taken. -/
theorem completes_ifThen (p : Pos) (c : Derivation.Expr) (p₁ : Pos) (next : Item) :
    start.Completes (Derivation.Opener.ifThen p c p₁).tokens next
      (.opening (.ifThen p c.tree)) := by
  simp only [Derivation.Opener.tokens, List.cons_append, List.nil_append]
  refine Takes.bind_completes (takes_peek _) ?_
  refine (takes_keyword .ifK p _).cons_completes ?_
  refine (completes_expr c rfl).bind ?_
  exact (takes_keyword .doK p₁ _).map.completes

/-- A statement without blocks is taken if nothing follows it that could be part of it: no
    operator, and no assignment sign. -/
theorem completes_stmt (s : Derivation.Stmt) (hs : s.isSimple) {next : Item}
    (hn : next.operator? = none) (ha : next.kind ≠ .symbol .assign) :
    start.Completes s.tokens next (.whole s.tree) := by
  cases s with
  | declare p₁ p x p₂ p₃ ty =>
    refine Takes.bind_completes (takes_peek _) ?_
    refine (takes_keyword .varK p₁ _).cons_completes ?_
    refine (takes_expectName x p _).cons_completes ?_
    refine (takes_symbol .colon p₂ _).cons_completes ?_
    refine (takes_expectType ty p₃ _).cons_completes ?_
    refine Takes.bind_completes (takes_peek _) ?_
    split
    · next p₄ hp =>
      rw [show next = _ from hp] at ha
      exact absurd rfl ha
    · exact (takes_pure _ _).completes
  | declareInit p₁ p x p₂ p₃ ty p₄ e =>
    refine Takes.bind_completes (takes_peek _) ?_
    refine (takes_keyword .varK p₁ _).cons_completes ?_
    refine (takes_expectName x p _).cons_completes ?_
    refine (takes_symbol .colon p₂ _).cons_completes ?_
    refine (takes_expectType ty p₃ _).cons_completes ?_
    refine Takes.bind_completes (takes_peek _) ?_
    refine (takes_advance _ _).cons_completes ?_
    exact (completes_expr e hn).map
  | assign p x p₁ e =>
    refine Takes.bind_completes (takes_peek _) ?_
    refine (takes_expectName x p _).cons_completes ?_
    refine (takes_symbol .assign p₁ _).cons_completes ?_
    exact (completes_expr e hn).map
  | print p e =>
    refine Takes.bind_completes (takes_peek _) ?_
    refine (takes_keyword .printK p _).cons_completes ?_
    exact (completes_expr e hn).map
  | read p₁ p x =>
    refine Takes.bind_completes (takes_peek _) ?_
    refine (takes_keyword .readK p₁ _).cons_completes ?_
    exact (takes_expectName x p _).map.completes
  | assert p p₁ c p₂ =>
    simp only [Derivation.Stmt.tokens, List.cons_append, List.nil_append]
    refine Takes.bind_completes (takes_peek _) ?_
    refine (takes_keyword .assertK p _).cons_completes ?_
    refine (takes_symbol .openParen p₁ _).cons_completes ?_
    refine (completes_expr c rfl).bind ?_
    exact (takes_symbol .closeParen p₂ _).map.completes
  -- The others have blocks.
  | forLoop => cases hs
  | ifThen => cases hs
  | ifElse => cases hs

/-- The end of a block is taken, with the keyword that belongs to its opener. -/
theorem takes_closing (o : Opener) (p₁ p₂ : Pos) (next : Item) :
    (closing o).Takes [Keyword.token .endK p₁, o.keyword.token p₂] next (.ok ()) :=
  (takes_keyword .endK p₁ _).bind (takes_keyword o.keyword p₂ next).map

end Reading

end MiniPL
