import MiniPL.Proofs.Grammar.LoneExpressions
import MiniPL.Proofs.Program.Layout
import MiniPL.Proofs.Session.Invariant

/-!
# Echoes

A snippet that is a lone expression stands for the program that writes its value. It is taken for
one only if it is no program, and no text is both (`not_parseProgram_and_parseLoneExpr`), so it
does not matter which of the two is tried first.

What stands for a lone expression is also what its lexemes make with `print` before them and a
semicolon after them, up to positions (`Stream.Prints.exists_program`). So the two snippets are
accepted or refused alike (`Snippet.SameButEcho`), and they run alike
(`Block.Alike.alike_runSnippet`): all that tells them apart is that one is echoed.
-/

namespace MiniPL

/-! ## Parsing -/

theorem parseLoneExpr_eq_ok_iff {source : String} {e : Expr Nat} :
    (parseLoneExpr source).result = .ok e ↔
      ∃ d, (Stream.ofSource source).parseExpr.result = .ok d ∧ d.number = e :=
  map_mapError_eq_ok_iff

/-- No text is both a program and a lone expression. -/
theorem not_parseProgram_and_parseLoneExpr {source : String} {program : Block Nat} {e : Expr Nat}
    (hp : (parseProgram source).result = .ok program) : (parseLoneExpr source).result ≠ .ok e := by
  intro he
  obtain ⟨b, hb, -⟩ := parseProgram_eq_ok_iff.1 hp
  obtain ⟨d, hd, -⟩ := parseLoneExpr_eq_ok_iff.1 he
  exact Stream.not_parse_and_parseExpr hb hd

namespace Snippet

variable {source : String}

/-- A lone expression is a snippet that stands for a program. -/
theorem result_parse_of_loneExpr {e : Expr Nat} (h : (parseLoneExpr source).result = .ok e) :
    (parse source).result = .ok ([.print e.pos e], true) := by
  obtain ⟨d, hd, -⟩ := parseLoneExpr_eq_ok_iff.1 h
  obtain ⟨ts, p, hs⟩ := Stream.exists_eof_of_parseExpr hd
  -- As it is no program, it has syntax faults as one.
  obtain ⟨fs, hfs⟩ : ∃ fs, (parseProgram source).result = .error (.syntactic fs) := by
    rcases Stream.result_of_eof ts p with ⟨b, hb⟩ | ⟨fs, -, hfs⟩
    · exact absurd hd (Stream.not_parse_and_parseExpr (hs ▸ hb))
    · refine ⟨fs, ?_⟩
      rw [result_parseProgram, hs, hfs]
      rfl
  rw [parse]
  simp only [hfs, h]

/-! ## The check -/

/-- A lone expression and the program that it stands for are accepted on the variables `σ`, or
    refused: either both have the same program, up to positions, and the same variables and types,
    and only the first one is echoed; or they fail with the same kinds and messages. -/
inductive SameButEcho (σ : Store VarType) : Except Failure Snippet → Except Failure Snippet → Prop
  | accepted {s s' : Snippet} (program : s.program.Alike s'.program) (store : s.store = s'.store)
    (types : Block.types σ s.program = Block.types σ s'.program) (echo : s.echo = true)
    (echo' : s'.echo = false) : SameButEcho σ (.ok s) (.ok s')
  | refused {e f : Failure} (messages : e.explain.unplaced = f.explain.unplaced) :
    SameButEcho σ (.error e) (.error f)

end Snippet

namespace Block.Alike

variable {p q : Block Nat} {a b : String}

theorem sameButEcho (h : p.Alike q) (ha : (Snippet.parse a).result = .ok (p, true))
    (hb : (Snippet.parse b).result = .ok (q, false)) (σ : Store VarType) :
    Snippet.SameButEcho σ (Snippet.accept σ a).result (Snippet.accept σ b).result := by
  rw [Snippet.result_accept ha, Snippet.result_accept hb, h.actsAlike.isEmpty_faults]
  cases (Block.faults σ q).isEmpty with
  | true => exact .accepted h (h.extend σ) (h.types σ) rfl rfl
  | false => exact .refused (h.actsAlike.explain_faults σ)

/-! ## The run -/

/-- Snippets that stand for one program, up to positions, run alike. -/
theorem alike_runSnippet (h : p.Alike q) {x y : Bool} (ha : (Snippet.parse a).result = .ok (p, x))
    (hb : (Snippet.parse b).result = .ok (q, y)) (σ : Store VarType)
    (lines : List (Option String)) :
    (Session.runSnippet σ a lines).1.Alike (Session.runSnippet σ b lines).1 := by
  have hlog {α : Type} (l : Logged α) : l.events.filter Event.isEffect = [] := by
    simp [Logged.events, Event.isEffect]
  have hempty := h.actsAlike.isEmpty_faults σ
  simp only [Session.runSnippet, Snippet.result_accept ha, Snippet.result_accept hb, hempty]
  cases (Block.faults σ q).isEmpty with
  | true =>
    have hshows := Outcome.shows_ofRun (hlog (Snippet.accept σ a)) p (Block.extend σ p) lines
    have hshows' := Outcome.shows_ofRun (hlog (Snippet.accept σ b)) q (Block.extend σ q) lines
    rw [h.extend] at hshows
    simp only [if_true]
    rw [h.extend]
    exact h.actsAlike.alike_of_shows hshows hshows'
  | false =>
    exact ⟨(hlog _).trans (hlog _).symm, rfl, congrArg some (h.actsAlike.explain_faults σ)⟩

end Block.Alike

/-! ## Echoes -/

section Echo

variable {ls : List Lexeme} {a b : String}

/-- The program that writes a lone expression has the same numbers, too. -/
theorem Stream.Prints.exists_program (h : Prints ls (ofSource a) (ofSource b)) {e : Expr Nat}
    (he : (parseLoneExpr a).result = .ok e) :
    ∃ program, (parseProgram b).result = .ok program ∧ Block.Alike [.print e.pos e] program := by
  obtain ⟨d, hd, rfl⟩ := parseLoneExpr_eq_ok_iff.1 he
  obtain ⟨q, d', hd', hbare⟩ := (h.parseExpr_iff d.bare).1 ⟨d, hd, rfl⟩
  have halike : (Block.number [.print d.number.pos d]).Alike (Block.number [.print q d']) :=
    Block.alike_number (congrArg (fun e => [Stmt.print Pos.start e]) hbare.symm)
  exact ⟨_, parseProgram_eq_ok_iff.2 ⟨_, hd', rfl⟩, halike⟩

/-- Lone expressions stand for programs that write them, and for nothing else. No text is both a
    program and a lone expression. Lexemes without semicolons, or with one after them, make a lone
    expression if and only if `print` before them and a semicolon after them make a program, which
    then writes the expression, up to positions.

    Snippets of both kinds are parsed to programs with the same numbers. On the same variables,
    they are accepted, with the same types and variables, or fail with the same messages; only the
    lone expression is echoed. With the same input, both write and read the same, in the same
    order, fail with the same messages if they do, and leave the same variables. -/
theorem Session.loneExpr_iff_print :
    (∀ source program e, (parseProgram source).result = .ok program →
      (parseLoneExpr source).result ≠ .ok e) ∧
    (∀ ls s s', Stream.Prints ls s s' →
      (∀ e, (∃ d, s.parseExpr.result = .ok d ∧ d.bare = e) ↔
        ∃ q d, s'.parse.result = .ok [.print q d] ∧ d.bare = e) ∧
      ∀ b, s'.parse.result = .ok b → ∃ q d, b = [.print q d]) ∧
    ∀ ls a b, Stream.Prints ls (.ofSource a) (.ofSource b) →
      ∀ e, (parseLoneExpr a).result = .ok e →
        (∃ program, (parseProgram b).result = .ok program ∧
          Block.Alike [.print e.pos e] program) ∧
        ∀ σ, Snippet.SameButEcho σ (Snippet.accept σ a).result (Snippet.accept σ b).result ∧
          ∀ lines, (runSnippet σ a lines).1.Alike (runSnippet σ b lines).1 ∧
            (runSnippet σ a lines).1.writes = (runSnippet σ b lines).1.writes := by
  refine ⟨fun source program e => not_parseProgram_and_parseLoneExpr,
    fun ls s s' h => ⟨h.parseExpr_iff, fun b => h.exists_of_parse⟩, fun ls a b h e he => ?_⟩
  obtain ⟨program, hprogram, halike⟩ := h.exists_program he
  have ha := Snippet.result_parse_of_loneExpr he
  have hb := Snippet.result_parse_of_program hprogram
  refine ⟨⟨program, hprogram, halike⟩, fun σ => ⟨halike.sameButEcho ha hb σ, fun lines => ?_⟩⟩
  have hrun := halike.alike_runSnippet ha hb σ lines
  exact ⟨hrun, by rw [Outcome.writes_eq, Outcome.writes_eq, hrun.effects]⟩

/-- A quotient that fails once it has been accepted, with a comment and without. -/
theorem Session.loneExpr_iff_print_of_division :
    let a := "(1) / 0; // fails"
    let b := "print (1)/0;"
    (runSnippet .empty a []).1.writes = (runSnippet .empty b []).1.writes ∧
      (runSnippet .empty a []).2 = some true ∧ (runSnippet .empty b []).2 = some false ∧
      (runSnippet .empty a []).1.failure? =
        some (.halted (.fault ⟨.divisionByZero, ⟨1, 5⟩⟩)) ∧
      (runSnippet .empty b []).1.failure? =
        some (.halted (.fault ⟨.divisionByZero, ⟨1, 10⟩⟩)) := by
  intro a b
  have h : Stream.Prints ((Stream.ofSource "(1) / 0").tokens.map (·.lexeme))
      (.ofSource a) (.ofSource b) :=
    ⟨by decide +kernel, by decide +kernel, by decide +kernel, by decide +kernel,
      by decide +kernel, by decide +kernel⟩
  have hlabel : (parseLoneExpr a).result.toOption.map Expr.label = some 2 := by decide +kernel
  obtain ⟨e, he, -⟩ := exists_eq_ok_of_toOption hlabel
  exact ⟨((loneExpr_iff_print.2.2 _ a b h e he).2 .empty |>.2 []).2, by decide +kernel⟩

end Echo

end MiniPL
