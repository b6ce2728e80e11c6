import MiniPL.Proofs.Execution.Simulation
import MiniPL.Proofs.Grammar.Relocation
import MiniPL.Session

/-!
# Where failures stand

A text may fail in every phase of its handling (`Raises`). What fails then is its stream: the
stream ends with a fault, has syntax faults, or gives a program that has semantic faults or comes
to an end when it runs (`Stream.Fails`).

In all these phases, positions are only passed on. So if the positions of a stream are kept
and all other ones are moved, all failures stay where they are (`Stream.Fails.relocate`): a failure
stands where an item of the stream stands, or the fault that the stream ends with
(`Stream.Fails.positions_subset`).
-/

namespace MiniPL

/-! ## Positions -/

namespace Failure

/-- The failure at another position, if it has one. -/
def relocate (g : Pos → Pos) : Failure → Failure
  | file path f => file path f
  | lexical r => lexical (r.relocate g)
  | syntactic fs => syntactic (fs.map (·.relocate g))
  | semantic fs => semantic (fs.map (·.relocate g))
  | halted h => halted (h.relocate g)

/-- The positions of a failure. -/
def positions : Failure → List Pos
  | file .. => []
  | lexical r => [r.pos]
  | syntactic fs => fs.map Located.pos
  | semantic fs => fs.map Located.pos
  | halted (.fault f) => [f.pos]
  | halted _ => []

theorem positions_relocate (g : Pos → Pos) (e : Failure) :
    (e.relocate g).positions = e.positions.map g := by
  rcases e with _ | _ | fs | fs | (_ | _ | _)
  case syntactic | semantic => simp [relocate, positions, Located.relocate]
  all_goals rfl

theorem ofParse_relocate (g : Pos → Pos) (f : ParseFailure) :
    ofParse (f.relocate g) = (ofParse f).relocate g := by
  cases f <;> rfl

end Failure

/-! ## Failures -/

/-- The programs that a stream gives: that of all its tokens, or the output of the one expression
    that they are. -/
inductive Stream.Gives (s : Stream) : Block Nat → Prop
  | program {b : Block Unit} : s.parse.result = .ok b → Gives s (Block.number b)
  | expression {e : Expr Unit} : s.parseExpr.result = .ok e →
    Gives s [.print e.number.pos e.number]

/-- The ways in which handling a stream fails. -/
inductive Stream.Fails (σ : Store VarType) (s : Stream) : Failure → Prop
  | lexing {r : Rejection} : s.fault? = some r → Fails σ s (.lexical r)
  | parsing {f : ParseFailure} : s.parse.result = .error f → Fails σ s (.ofParse f)
  | parsingExpr {f : ParseFailure} : s.parseExpr.result = .error f → Fails σ s (.ofParse f)
  | checking {b : Block Nat} : s.Gives b → Fails σ s (.semantic (Block.faults σ b))
  | running {b : Block Nat} {τ : Store VarType} {lines : List (Option String)} {h : Halt} :
    s.Gives b → (Block.exec b (.start τ lines)).halt? = some h → Fails σ s (.halted h)

/-- The failure comes up when a text is cut into tokens, parsed, as a program or as an expression,
    checked, or run, as a program or as a snippet, on the variables in `σ`. -/
inductive Raises (σ : Store VarType) (source : String) : Failure → Prop
  | lexing {r : Rejection} : (Stream.ofSource source).fault? = some r →
    Raises σ source (.lexical r)
  | parsing {e : Failure} : (parseProgram source).result = .error e → Raises σ source e
  | parsingExpr {e : Failure} : (parseLoneExpr source).result = .error e → Raises σ source e
  | checking {e : Failure} : (checkText σ source).failure? = some e → Raises σ source e
  | running {e : Failure} (lines : List (Option String)) :
    (runText σ source lines).failure? = some e → Raises σ source e
  | snippet {e : Failure} (lines : List (Option String)) :
    (Session.runSnippet σ source lines).1.failure? = some e → Raises σ source e

section Raises

variable {σ : Store VarType} {source : String} {e : Failure}

theorem fails_of_parseProgram (h : (parseProgram source).result = .error e) :
    (Stream.ofSource source).Fails σ e := by
  unfold parseProgram at h
  dsimp only at h
  split at h
  · cases h
  · next f hf =>
    cases h
    exact .parsing hf

theorem gives_of_parseProgram {program : Block Nat}
    (h : (parseProgram source).result = .ok program) : (Stream.ofSource source).Gives program := by
  unfold parseProgram at h
  dsimp only at h
  split at h
  · next b hb =>
    cases h
    exact .program hb
  · cases h

theorem result_parseLoneExpr (source : String) : (parseLoneExpr source).result =
    ((Stream.ofSource source).parseExpr.result.map Expr.number).mapError .ofParse :=
  rfl

theorem fails_of_parseLoneExpr (h : (parseLoneExpr source).result = .error e) :
    (Stream.ofSource source).Fails σ e := by
  rw [result_parseLoneExpr] at h
  cases hp : (Stream.ofSource source).parseExpr.result with
  | ok e =>
    rw [hp] at h
    cases h
  | error f =>
    rw [hp] at h
    cases h
    exact .parsingExpr hp

theorem gives_of_parseLoneExpr {e : Expr Nat} (h : (parseLoneExpr source).result = .ok e) :
    (Stream.ofSource source).Gives [.print e.pos e] := by
  rw [result_parseLoneExpr] at h
  cases hp : (Stream.ofSource source).parseExpr.result with
  | ok e =>
    rw [hp] at h
    cases h
    exact .expression hp
  | error f =>
    rw [hp] at h
    cases h

theorem fails_of_checkProgram {program : Block Nat} (hp : (Stream.ofSource source).Gives program)
    (h : (checkProgram σ program).result = .error e) : (Stream.ofSource source).Fails σ e := by
  unfold checkProgram at h
  dsimp only at h
  split at h
  · cases h
  · cases h
    exact .checking hp

theorem fails_of_ofRun {program : Block Nat} {before : List Event} {τ : Store VarType}
    {lines : List (Option String)} (hp : (Stream.ofSource source).Gives program)
    (h : (Outcome.ofRun before program τ lines).failure? = some e) :
    (Stream.ofSource source).Fails σ e := by
  obtain ⟨halt, hhalt, rfl⟩ := Option.map_eq_some_iff.1 h
  exact .running hp hhalt

theorem fails_of_parse_snippet (h : (Snippet.parse source).result = .error e) :
    (Stream.ofSource source).Fails σ e := by
  unfold Snippet.parse at h
  dsimp only at h
  split at h
  · cases h
  · next hp =>
    split at h
    · cases h
    · cases h
      exact fails_of_parseProgram hp
  · next hp =>
    cases h
    exact fails_of_parseProgram hp

theorem gives_of_parse_snippet {program : Block Nat} {echo : Bool}
    (h : (Snippet.parse source).result = .ok (program, echo)) :
    (Stream.ofSource source).Gives program := by
  unfold Snippet.parse at h
  dsimp only at h
  split at h
  · next hp =>
    cases h
    exact gives_of_parseProgram hp
  · split at h
    · next e he =>
      cases h
      exact gives_of_parseLoneExpr he
    · cases h
  · cases h

theorem fails_of_accept (h : (Snippet.accept σ source).result = .error e) :
    (Stream.ofSource source).Fails σ e := by
  rw [Snippet.accept, Logged.bind] at h
  cases hp : (Snippet.parse source).result with
  | error e' =>
    simp only [hp] at h
    cases h
    exact fails_of_parse_snippet hp
  | ok parsed =>
    obtain ⟨program, echo⟩ := parsed
    simp only [hp] at h
    rw [Logged.bind] at h
    cases hc : (checkProgram σ program).result with
    | error e' =>
      simp only [hc] at h
      cases h
      exact fails_of_checkProgram (gives_of_parse_snippet hp) hc
    | ok τ =>
      simp only [hc] at h
      cases h

theorem gives_of_accept {s : Snippet} (h : (Snippet.accept σ source).result = .ok s) :
    (Stream.ofSource source).Gives s.program := by
  rw [Snippet.accept, Logged.bind] at h
  cases hp : (Snippet.parse source).result with
  | error e' =>
    simp only [hp] at h
    cases h
  | ok parsed =>
    obtain ⟨program, echo⟩ := parsed
    simp only [hp] at h
    rw [Logged.bind] at h
    cases hc : (checkProgram σ program).result with
    | error e' =>
      simp only [hc] at h
      cases h
    | ok τ =>
      simp only [hc] at h
      cases h
      exact gives_of_parse_snippet hp

/-- What a text raises is a failure of its stream. -/
theorem Raises.fails (h : Raises σ source e) : (Stream.ofSource source).Fails σ e := by
  cases h with
  | lexing h => exact .lexing h
  | parsing h => exact fails_of_parseProgram h
  | parsingExpr h => exact fails_of_parseLoneExpr h
  | checking h =>
    unfold checkText at h
    dsimp only at h
    split at h
    · next hp =>
      cases h
      exact fails_of_parseProgram hp
    · next program hp =>
      split at h
      · next hc =>
        cases h
        exact fails_of_checkProgram (gives_of_parseProgram hp) hc
      · cases h
  | running lines h =>
    unfold runText at h
    dsimp only at h
    split at h
    · next hp =>
      cases h
      exact fails_of_parseProgram hp
    · next program hp =>
      split at h
      · next hc =>
        cases h
        exact fails_of_checkProgram (gives_of_parseProgram hp) hc
      · exact fails_of_ofRun (gives_of_parseProgram hp) h
  | snippet lines h =>
    unfold Session.runSnippet at h
    dsimp only at h
    split at h
    · next s hs => exact fails_of_ofRun (gives_of_accept hs) h
    · next he =>
      cases h
      exact fails_of_accept he

end Raises

/-! ## Other positions -/

namespace Stream

variable {g : Pos → Pos} {s : Stream} {σ : Store VarType}

/-- If its positions are kept, so are those of a program that a stream gives. -/
theorem Gives.relocate {b : MiniPL.Block Nat} (h : s.Gives b) (hg : s.relocate g = s) :
    Block.relocate g b = Block.relocate id b := by
  cases h with
  | @program b hb =>
    have hres := result_relocate g s
    rw [hg, hb] at hres
    have hb : b = Block.relocate g b := Except.ok.inj hres
    rw [Block.number, Block.relocate_numberFrom, Block.relocate_numberFrom, ← hb, Block.relocate_id]
  | @expression e he =>
    have hres := result_parseExpr_relocate g s
    rw [hg, he] at hres
    have he : e = e.relocate g := Except.ok.inj hres
    have hnumber : e.number.relocate g = e.number.relocate id := by
      rw [Expr.number, Expr.relocate_numberFrom, Expr.relocate_numberFrom, ← he, Expr.relocate_id]
    have hpos : g e.number.pos = id e.number.pos := by
      rw [← e.number.pos_relocate g, hnumber, e.number.pos_relocate]
    simp only [Block.relocate, Stmt.relocate, hnumber, hpos]

/-- If its positions are kept, a failure of a stream stays where it is. -/
theorem Fails.relocate {e : Failure} (h : s.Fails σ e) (hg : s.relocate g = s) :
    e.relocate g = e := by
  cases h with
  | @lexing r hr =>
    have hfault : (s.relocate g).fault? = s.fault?.map (Located.relocate g) := by
      obtain ⟨ts, p | f⟩ := s <;> rfl
    rw [hg, hr] at hfault
    exact congrArg Failure.lexical (Option.some.inj hfault).symm
  | @parsing f hf =>
    have hres := result_relocate g s
    rw [hg, hf] at hres
    have hf : f = f.relocate g := Except.error.inj hres
    rw [← Failure.ofParse_relocate, ← hf]
  | @parsingExpr f hf =>
    have hres := result_parseExpr_relocate g s
    rw [hg, hf] at hres
    have hf : f = f.relocate g := Except.error.inj hres
    rw [← Failure.ofParse_relocate, ← hf]
  | @checking b hb =>
    have hfaults := Block.faults_relocate g σ b
    rw [hb.relocate hg, Block.faults_relocate] at hfaults
    rw [Failure.relocate, ← hfaults]
    exact congrArg Failure.semantic (List.map_id' _)
  | @running b τ lines halt hb hhalt =>
    have hstart : (Run.start τ lines).Follows g [] (.start τ lines) := ⟨rfl, rfl, rfl⟩
    have hexec := (Block.follows_exec g b hstart).2
    rw [hb.relocate hg, Block.exec_relocate_id, hhalt] at hexec
    exact congrArg Failure.halted (Option.some.inj hexec).symm

/-- A failure of a stream stands where one of its items stands, or the fault that it ends with. -/
theorem Fails.positions_subset {e : Failure} (h : s.Fails σ e) : e.positions ⊆ s.positions := by
  intro p hp
  refine Decidable.byContradiction fun hs => ?_
  -- If `p` alone is moved, the stream is not, and so neither is the failure.
  let g : Pos → Pos := fun q => if q = p then ⟨p.line, p.column + 1⟩ else q
  have hg : s.relocate g = s := relocate_eq_self fun q hq =>
    if_neg fun (hqp : q = p) => hs (hqp ▸ hq)
  have hkept := Failure.positions_relocate g e
  rw [h.relocate hg] at hkept
  have hgp : g p = p := (List.map_inj_left.1 (hkept.symm.trans (List.map_id' _).symm)) p hp
  rw [show g p = ⟨p.line, p.column + 1⟩ from if_pos rfl] at hgp
  have := congrArg Pos.column hgp
  dsimp only at this
  omega

end Stream

end MiniPL
