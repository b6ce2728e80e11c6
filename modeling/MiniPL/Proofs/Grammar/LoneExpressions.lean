import MiniPL.Proofs.Grammar.Names
import MiniPL.Proofs.Grammar.Relocation
import MiniPL.Proofs.Grammar.Semicolons

/-!
# Lone expressions

A lone expression is an expression, with a semicolon after it or without one
(`Derivation.Expr.Alone`). What is parsed as one is that (`Stream.exists_alone_of_parseExpr`), and
that is parsed as one if it does not nest too deeply (`Stream.parseExpr_alone`). It is no program,
as a statement has a keyword or `:=` (`Derivation.Block.tokens_ne_of_alone`).

But it stands for one: where a lone expression is parsed, `print` before it and a semicolon after
it make the program that writes it, and they make no other one (`Stream.Prints.parseExpr_iff`).
-/

namespace MiniPL

/-! ## What stands in expressions -/

/-- Whether a lexeme may stand in an expression. -/
def Lexeme.inExpr : Lexeme → Bool
  | .keyword _ => false
  | .symbol .assign => false
  | .symbol .semicolon => false
  | _ => true

/-- Tokens are cut in one way only at their first semicolon. -/
theorem Token.eq_of_append_semicolon {ts us vs ws : List Token} {q r : Pos}
    (hts : ∀ t ∈ ts, t.lexeme ≠ .symbol .semicolon) (hus : ∀ t ∈ us, t.lexeme ≠ .symbol .semicolon)
    (h : ts ++ Symbol.token .semicolon q :: vs = us ++ Symbol.token .semicolon r :: ws) :
    ts = us ∧ vs = ws := by
  let p (t : Token) : Bool := t.lexeme != .symbol .semicolon
  have htake {ts : List Token} (hts : ∀ t ∈ ts, t.lexeme ≠ .symbol .semicolon) (q : Pos)
      (vs : List Token) : (ts ++ Symbol.token .semicolon q :: vs).takeWhile p = ts := by
    rw [List.takeWhile_append_of_pos fun t ht => by simpa [p] using hts t ht,
      List.takeWhile_cons_of_neg (by simp [p]), List.append_nil]
  obtain rfl : ts = us := by rw [← htake hts q vs, h, htake hus]
  exact ⟨rfl, (List.cons.inj (List.append_cancel_left h)).2⟩

/-- How deep parentheses nest does not depend on positions. -/
theorem Token.nesting_relocate (g : Pos → Pos) (ts : List Token) :
    nesting (ts.map (·.relocate g)) = nesting ts := by
  have h (n : Nat) : nestingFrom n (ts.map (·.relocate g)) = nestingFrom n ts := by
    induction ts generalizing n with
    | nil => rfl
    | cons t ts ih => exact congrArg (max n) (ih _)
  exact h 0

namespace Derivation

mutual

theorem Operand.inExpr : (o : Operand) → ∀ t ∈ o.tokens, t.lexeme.inExpr
  | .literal p l => by cases l <;> simp [Operand.tokens, Literal.lexeme, Lexeme.inExpr]
  | .var p x => by simp [Operand.tokens, Lexeme.inExpr]
  | .group p e q => by
    have := e.inExpr
    simp only [Operand.tokens, List.mem_append, List.mem_singleton]
    rintro t ((rfl | h) | rfl)
    · rfl
    · exact this t h
    · rfl

/-- Neither keywords nor `:=` stand in an expression. -/
theorem Expr.inExpr : (e : Expr) → ∀ t ∈ e.tokens, t.lexeme.inExpr
  | .single o => o.inExpr
  | .negation p o => by
    simp only [Expr.tokens, List.mem_append, List.mem_singleton]
    rintro t (rfl | h)
    · rfl
    · exact o.inExpr t h
  | .binary l op p r => by
    simp only [Expr.tokens, List.mem_append, List.mem_singleton]
    rintro t ((h | rfl) | h)
    · exact l.inExpr t h
    · cases op <;> rfl
    · exact r.inExpr t h

end

/-- A keyword or `:=` stands in every statement. -/
theorem Stmt.exists_not_inExpr (s : Stmt) :
    ∃ t ∈ s.tokens, t.lexeme.inExpr = false ∧ t.lexeme ≠ .symbol .semicolon := by
  cases s with
  | assign p x p₁ e => exact ⟨Symbol.token .assign p₁, by simp [Stmt.tokens], rfl, nofun⟩
  | _ => exact ⟨_, List.mem_cons_self, rfl, nofun⟩

theorem Expr.tokens_ne_nil (e : Expr) : e.tokens ≠ [] := by
  intro h
  have hhead := e.head?_tokens
  rw [h] at hhead
  cases hhead

/-- Which tokens without semicolons a lone expression has. -/
theorem Expr.Alone.tokens_eq {e : Expr} {us ts : List Token} (h : e.Alone ts)
    (hus : ∀ t ∈ us, t.lexeme ≠ .symbol .semicolon)
    (hts : ts = us ∨ ∃ q, ts = us ++ [Symbol.token .semicolon q]) : e.tokens = us := by
  have hlast {vs : List Token} (q : Pos) (hvs : ∀ t ∈ vs ++ [Symbol.token .semicolon q],
      t.lexeme ≠ .symbol .semicolon) : False :=
    hvs _ (List.mem_append_right vs List.mem_cons_self) rfl
  rcases h with rfl | ⟨q, rfl⟩
  · rcases hts with hts | ⟨q, hts⟩
    · exact hts
    · exact (hlast q (hts ▸ e.ne_semicolon)).elim
  · rcases hts with rfl | ⟨q', hts⟩
    · exact (hlast q hus).elim
    · exact (Token.eq_of_append_semicolon e.ne_semicolon hus hts).1

/-- A lone expression is no program. -/
theorem Block.tokens_ne_of_alone (b : Block) {e : Expr} {ts : List Token} (h : e.Alone ts) :
    b.tokens ≠ ts := by
  intro hb
  have hts : ∀ t ∈ ts, t.lexeme.inExpr ∨ t.lexeme = .symbol .semicolon := by
    rcases h with rfl | ⟨q, rfl⟩
    · exact fun t ht => .inl (e.inExpr t ht)
    · intro t ht
      rcases List.mem_append.1 ht with ht | ht
      · exact .inl (e.inExpr t ht)
      · obtain rfl := List.mem_singleton.1 ht
        exact .inr rfl
  cases b with
  | nil =>
    rcases h with rfl | ⟨q, rfl⟩
    · exact e.tokens_ne_nil hb.symm
    · exact List.append_ne_nil_of_right_ne_nil _ (List.cons_ne_nil _ _) hb.symm
  | cons s q rest =>
    obtain ⟨t, ht, hnot, hsemicolon⟩ := s.exists_not_inExpr
    have hmem : t ∈ ts := by
      rw [← hb, Block.tokens]
      exact List.mem_append_left _ (List.mem_append_left _ ht)
    rcases hts t hmem with h | h
    · rw [hnot] at h
      cases h
    · exact hsemicolon h

/-- If `print` before tokens without semicolons and a semicolon after them make a program, they are
    those of an expression. -/
theorem Block.exists_of_tokens_print {b : Block} {q r : Pos} {ts : List Token}
    (hts : ∀ t ∈ ts, t.lexeme ≠ .symbol .semicolon)
    (h : b.tokens = Keyword.token .printK q :: (ts ++ [Symbol.token .semicolon r])) :
    ∃ e : Expr, e.tokens = ts ∧ b.tree = [.print q e.tree] := by
  cases b with
  | nil => cases h
  | cons s q' rest =>
    simp only [Block.tokens, List.append_assoc, List.singleton_append] at h
    cases s with
    | print p e =>
      obtain ⟨hp, h⟩ := List.cons.inj h
      obtain ⟨rfl, hrest⟩ := Token.eq_of_append_semicolon e.ne_semicolon hts h
      obtain rfl : p = q := (Token.mk.inj hp).2
      refine ⟨e, rfl, ?_⟩
      cases rest with
      | nil => rfl
      | cons s' _ _ =>
        exact absurd (List.append_eq_nil_iff.1 (List.append_eq_nil_iff.1 hrest).1).1
          s'.tokens_ne_nil
    | _ => cases (List.cons.inj h).1

end Derivation

/-! ## Results and shapes -/

/-- A result is there, if it is after changes. -/
theorem map_mapError_eq_ok_iff {ε ε' α β : Type} {x : Except ε α} {f : α → β} {k : ε → ε'}
    {b : β} : (x.map f).mapError k = .ok b ↔ ∃ a, x = .ok a ∧ f a = b := by
  constructor
  · intro h
    cases x with
    | ok a => exact ⟨a, rfl, Except.ok.inj h⟩
    | error e => cases h
  · rintro ⟨a, rfl, rfl⟩
    rfl

/-- Only programs that write an expression have their shape. -/
theorem Block.exists_of_bare_eq_print {b : Block Unit} {q : Pos} {e : Expr Unit}
    (h : Block.bare b = [.print q e]) : ∃ q d, b = [.print q d] ∧ d.bare = e := by
  rcases b with _ | ⟨s, _ | ⟨s', rest⟩⟩
  · cases h
  · obtain ⟨hs, -⟩ := List.cons.inj h
    cases s with
    | print q d => exact ⟨q, d, rfl, (Stmt.print.inj hs).2⟩
    | declare p x ty init => cases init <;> cases hs
    | _ => cases hs
  · cases (List.cons.inj h).2

/-! ## What is parsed -/

namespace Reading

theorem takes_atEnd (e : Expr Unit) (p : Pos) : (atEnd e).Takes [] (.eof p) (.ok e) :=
  (takes_peek _).bind_nil (takes_pure _ _)

/-- The tokens of a lone expression are taken if they do not nest too deeply. -/
theorem takes_loneExpr {d : Derivation.Expr} {ts : List Token} (h : d.Alone ts)
    (hd : Token.nesting d.tokens ≤ nestingLimit) (p : Pos) :
    loneExpr.Takes ts (.eof p) (.ok d.tree) := by
  rw [loneExpr_eq]
  rcases h with rfl | ⟨q, rfl⟩
  · have hexpr : expr.Takes d.tokens (.eof p) (.ok d.tree) :=
      (completes_expr d rfl).takes reads_expr nofun hd
    rw [← List.append_nil d.tokens]
    exact hexpr.bind ((takes_peek _).bind_nil (takes_atEnd _ _))
  · have hexpr : expr.Takes d.tokens (.token (Symbol.token .semicolon q)) (.ok d.tree) :=
      (completes_expr d rfl).takes reads_expr nofun hd
    refine hexpr.bind ((takes_peek _).bind_nil ?_)
    exact .advance_bind _ (takes_atEnd _ _)

end Reading

namespace Stream

variable {ts : List Token} {p : Pos}

/-- A lone expression is parsed if it does not nest too deeply. -/
theorem parseExpr_alone {d : Derivation.Expr} (h : d.Alone ts)
    (hd : Token.nesting d.tokens ≤ Reading.nestingLimit) (p : Pos) :
    (parseExpr ⟨ts, .eof p⟩).result = .ok d.tree := by
  have hread := Reading.takes_loneExpr h hd p .start [] p rfl
  rw [List.append_nil] at hread
  simp only [parseExpr, Reader.ofStream, hread, Reading.Outcome.of]

/-- No stream is parsed both as a program and as a lone expression. -/
theorem not_parse_and_parseExpr {s : Stream} {b : Block Unit} {e : Expr Unit}
    (hb : s.parse.result = .ok b) : s.parseExpr.result ≠ .ok e := by
  intro he
  obtain ⟨ts, p, rfl⟩ := exists_eof_of_parse hb
  obtain ⟨d, hd, -⟩ := exists_block_of_parse hb
  obtain ⟨d', halone, -⟩ := exists_alone_of_parseExpr he
  exact d.tokens_ne_of_alone halone hd

/-! ## Printing -/

/-- Of tokens without semicolons, `print` and a semicolon make nothing but a program that prints an
    expression. -/
theorem exists_of_parse_print {us : List Token} (hus : ∀ t ∈ us, t.lexeme ≠ .symbol .semicolon)
    {q r p : Pos} {b : Block Unit}
    (h : (parse ⟨Keyword.token .printK q :: (us ++ [Symbol.token .semicolon r]), .eof p⟩).result =
      .ok b) :
    ∃ d : Derivation.Expr, d.tokens = us ∧ b = [.print q d.tree] := by
  obtain ⟨d, hd, rfl⟩ := exists_block_of_parse h
  exact Derivation.Block.exists_of_tokens_print hus hd

/-- A program that prints an expression is parsed if it does not nest too deeply. -/
theorem parse_print {d : Derivation.Expr} (hd : Token.nesting d.tokens ≤ Reading.nestingLimit)
    (q r p : Pos) :
    (parse ⟨Keyword.token .printK q :: (d.tokens ++ [Symbol.token .semicolon r]),
      .eof p⟩).result = .ok [.print q d.tree] := by
  let b : Derivation.Block := .cons (.print q d) r .nil
  have htokens :
      b.tokens = Keyword.token .printK q :: (d.tokens ++ [Symbol.token .semicolon r]) := by
    simp [b, Derivation.Block.tokens, Derivation.Stmt.tokens]
  have hnesting : Token.nesting b.tokens = Token.nesting d.tokens := by
    rw [htokens, Token.nesting, Token.nestingFrom, Nat.zero_max]
    exact Token.nesting_append_singleton fun h => by cases h
  have hparse := parse_tokens b p (Nat.le_trans (Nat.le_of_eq hnesting) hd)
  rwa [htokens] at hparse

/-- Tokens without semicolons, or with one after them, are parsed as a lone expression if and only
    if `print` before them and a semicolon after them make the program that writes it. -/
theorem parseExpr_eq_ok_iff_parse_print {us : List Token}
    (hus : ∀ t ∈ us, t.lexeme ≠ .symbol .semicolon) (hn : Token.nesting us ≤ Reading.nestingLimit)
    (hts : ts = us ∨ ∃ q, ts = us ++ [Symbol.token .semicolon q]) (q r p' : Pos) (e : Expr Unit) :
    (parseExpr ⟨ts, .eof p⟩).result = .ok e ↔
      (parse ⟨Keyword.token .printK q :: (us ++ [Symbol.token .semicolon r]), .eof p'⟩).result =
        .ok [.print q e] := by
  constructor
  · intro h
    obtain ⟨d, halone, rfl⟩ := exists_alone_of_parseExpr h
    obtain rfl : d.tokens = us := halone.tokens_eq hus hts
    exact parse_print hn q r p'
  · intro h
    obtain ⟨d, rfl, heq⟩ := exists_of_parse_print hus h
    obtain rfl : e = d.tree := by simpa using heq
    exact parseExpr_alone hts hn p

/-! ## Positions -/

/-- A stream that does not end with a fault has nothing but its lexemes left at the start. -/
theorem relocate_start {s : Stream} (h : s.fault? = none) :
    (s.relocate fun _ => .start) = ⟨(s.tokens.map (·.lexeme)).map (⟨·, .start⟩), .eof .start⟩ := by
  obtain ⟨ts, p | f⟩ := s
  · rw [List.map_map]
    rfl
  · cases h

theorem parseExpr_relocate_start_eq_ok_iff {s : Stream} {e : Expr Unit} :
    (s.relocate fun _ => .start).parseExpr.result = .ok e ↔
      ∃ d, s.parseExpr.result = .ok d ∧ d.bare = e := by
  simp only [result_parseExpr_relocate, map_mapError_eq_ok_iff, Expr.relocate_start]

theorem parse_relocate_start_eq_ok_iff {s : Stream} {b : Block Unit} :
    (s.relocate fun _ => .start).parse.result = .ok b ↔
      ∃ c, s.parse.result = .ok c ∧ Block.bare c = b := by
  simp only [result_relocate, map_mapError_eq_ok_iff, Block.relocate_start]

/-- The stream `s` has the lexemes `ls`, with a semicolon after them or without one, and `s'` has
    them with `print` before them and a semicolon after them. There is no semicolon among them,
    their parentheses do not nest too deeply, and neither stream ends with a fault. -/
structure Prints (ls : List Lexeme) (s s' : Stream) : Prop where
  ends_left : s.fault? = none
  ends_right : s'.fault? = none
  lexemes_left : s.tokens.map (·.lexeme) = ls ∨
    s.tokens.map (·.lexeme) = ls ++ [.symbol .semicolon]
  lexemes_right : s'.tokens.map (·.lexeme) = .keyword .printK :: (ls ++ [.symbol .semicolon])
  ne_semicolon : .symbol .semicolon ∉ ls
  nesting : Token.nesting s.tokens ≤ Reading.nestingLimit

namespace Prints

variable {ls : List Lexeme} {s s' : Stream}

/-- At the start, the streams have the same tokens without semicolons. -/
theorem exists_relocate_start (h : Prints ls s s') :
    ∃ us ts, (∀ t ∈ us, t.lexeme ≠ .symbol .semicolon) ∧
      Token.nesting us ≤ Reading.nestingLimit ∧
      (ts = us ∨ ∃ q, ts = us ++ [Symbol.token .semicolon q]) ∧
      (s.relocate fun _ => .start) = ⟨ts, .eof .start⟩ ∧
      (s'.relocate fun _ => .start) =
        ⟨Keyword.token .printK .start :: (us ++ [Symbol.token .semicolon .start]),
          .eof .start⟩ := by
  have hs := relocate_start h.ends_left
  have hs' := relocate_start h.ends_right
  rw [h.lexemes_right, List.map_cons, List.map_append] at hs'
  refine ⟨ls.map (⟨·, .start⟩), _, ?_, ?_, ?_, hs, hs'⟩
  · intro t ht
    obtain ⟨l, hl, rfl⟩ := List.mem_map.1 ht
    exact fun heq => h.ne_semicolon (heq ▸ hl)
  · have hn : Token.nesting (s.relocate fun _ => .start).tokens ≤ Reading.nestingLimit := by
      rw [relocate, Token.nesting_relocate]
      exact h.nesting
    rw [hs] at hn
    rcases h.lexemes_left with hl | hl
    · rwa [hl] at hn
    · rw [hl, List.map_append] at hn
      exact Nat.le_trans (Token.nesting_le_append ..) hn
  · rcases h.lexemes_left with hl | hl
    · exact .inl (congrArg _ hl)
    · refine .inr ⟨.start, ?_⟩
      rw [hl, List.map_append]
      rfl

/-- A lone expression is parsed if and only if `print` before it and a semicolon after it make the
    program that writes it. -/
theorem parseExpr_iff (h : Prints ls s s') (e : Expr Unit) :
    (∃ d, s.parseExpr.result = .ok d ∧ d.bare = e) ↔
      ∃ q d, s'.parse.result = .ok [.print q d] ∧ d.bare = e := by
  obtain ⟨us, ts, hus, hn, hts, hs, hs'⟩ := h.exists_relocate_start
  rw [← parseExpr_relocate_start_eq_ok_iff, hs,
    parseExpr_eq_ok_iff_parse_print hus hn hts .start .start .start, ← hs',
    parse_relocate_start_eq_ok_iff]
  constructor
  · rintro ⟨b, hb, hbare⟩
    obtain ⟨q, d, rfl, hd⟩ := Block.exists_of_bare_eq_print hbare
    exact ⟨q, d, hb, hd⟩
  · rintro ⟨q, d, hb, rfl⟩
    exact ⟨_, hb, rfl⟩

/-- `print` before tokens without semicolons and a semicolon after them make no program but one
    that writes an expression. -/
theorem exists_of_parse (h : Prints ls s s') {b : Block Unit} (hb : s'.parse.result = .ok b) :
    ∃ q d, b = [.print q d] := by
  obtain ⟨us, ts, hus, -, -, -, hs'⟩ := h.exists_relocate_start
  have hstart := parse_relocate_start_eq_ok_iff.2 ⟨b, hb, rfl⟩
  rw [hs'] at hstart
  obtain ⟨d, -, hbare⟩ := exists_of_parse_print hus hstart
  obtain ⟨q, d, rfl, -⟩ := Block.exists_of_bare_eq_print hbare
  exact ⟨q, d, rfl⟩

end Prints

end Stream

end MiniPL
