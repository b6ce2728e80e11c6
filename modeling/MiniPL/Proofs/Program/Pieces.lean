import MiniPL.Proofs.Grammar.Names
import MiniPL.Proofs.Grammar.Recovery
import MiniPL.Proofs.Program.Failures
import MiniPL.Proofs.Session.Invariant
import MiniPL.Proofs.Token.Lines
import MiniPL.Proofs.Typing.Decision

/-!
# Programs in pieces

A program may be run at once, or in pieces, each on the variables that the piece before it has
left (`runText_below`). At once, all of it is checked before any of it runs, so the names of a
later piece are there already when an earlier one runs; and the later piece stands further down,
and its expressions have other numbers. None of this matters: the check only looks at the types of
variables, which no run changes; and a run does not look at labels, at positions, or at
variables that it does not name.
-/

namespace MiniPL

/-! ## Parsing -/

theorem Derivation.Block.terminated (d : Derivation.Block) : Token.Terminated d.tokens := by
  cases d with
  | nil =>
    intro t ht
    cases ht
  | cons s q rest =>
    intro t ht
    rw [tokens, List.getLast?_append, List.getLast?_append, List.getLast?_singleton,
      Option.some_or] at ht
    cases hr : rest.tokens.getLast? with
    | none =>
      rw [hr] at ht
      cases ht
      rfl
    | some u =>
      rw [hr] at ht
      cases ht
      exact rest.terminated _ hr
termination_by structural d

namespace Stream

variable {a b : String} {p q : Block Unit}

/-- If two texts are programs, one below the other they are the program of both. -/
theorem parse_below (ha : (ofSource a).parse.result = .ok p)
    (hb : (ofSource b).parse.result = .ok q) :
    (ofSource (a ++ "\n" ++ b)).parse.result =
      .ok (p ++ Block.relocate (Pos.down (a.toList.count '\n' + 1)) q) := by
  obtain ⟨A, e, hA⟩ := exists_eof_of_parse ha
  obtain ⟨B, f, hB⟩ := exists_eof_of_parse hb
  have hne : b ≠ "" := by
    rintro rfl
    cases hB
  rw [ofSource_below hA hne]
  generalize Pos.down (a.toList.count '\n' + 1) = g
  -- The second text is parsed further down as it is parsed alone.
  have hb : ((ofSource b).relocate g).parse.result = .ok (Block.relocate g q) := by
    rw [result_relocate, hb]
    rfl
  rw [hB] at hb ⊢
  rw [hA] at ha
  obtain ⟨d, rfl, -⟩ := exists_block_of_parse ha
  obtain ⟨hfa, hea⟩ := parse_eq_ok_iff.1 ha
  obtain ⟨hfb, heb⟩ := parse_eq_ok_iff.1 hb
  obtain ⟨hfaults, hend⟩ := ParseState.run_append (B := B.map (·.relocate g)) (g f) d.terminated hea
  refine parse_eq_ok_iff.2 ⟨hfaults.trans ?_, hend.trans ?_⟩
  · rw [hfa]
    exact hfb
  · rw [show (ParseState.ofStream ⟨B.map (·.relocate g), .eof (g f)⟩).run.2 = _ from heb,
      ParseState.End.after, List.reverse_reverse]

end Stream

/-- A result is there, if something that depends on it is. -/
theorem exists_eq_ok_of_toOption {ε α β : Type} {x : Except ε α} {f : α → β} {b : β}
    (h : x.toOption.map f = some b) : ∃ a, x = .ok a ∧ f a = b := by
  cases x with
  | ok a => exact ⟨a, rfl, Option.some.inj h⟩
  | error e => cases h

theorem parseProgram_eq_ok_iff {source : String} {program : Block Nat} :
    (parseProgram source).result = .ok program ↔
      ∃ b, (Stream.ofSource source).parse.result = .ok b ∧ program = Block.number b := by
  unfold parseProgram
  dsimp only
  cases (Stream.ofSource source).parse.result with
  | ok b => simp [eq_comm]
  | error e => simp

/-! ## The check -/

section Check

variable {α : Type} {σ τ : Store VarType}

theorem Block.extend_append (σ : Store VarType) (a b : Block α) :
    Block.extend σ (a ++ b) = Block.extend (Block.extend σ a) b := by
  induction a generalizing σ with
  | nil => rfl
  | cons s a ih => rw [List.cons_append, Block.extend, ih, Block.extend]

theorem Block.faults_append (σ : Store VarType) (a b : Block α) :
    Block.faults σ (a ++ b) = Block.faults σ a ++ Block.faults (Block.extend σ a) b := by
  induction a generalizing σ with
  | nil => rfl
  | cons s a ih =>
    rw [List.cons_append, Block.faults, ih, Block.faults, Block.extend, List.append_assoc]

theorem Block.faults_relocate_eq_nil_iff (g : Pos → Pos) {b : Block α} :
    Block.faults σ (Block.relocate g b) = [] ↔ Block.faults σ b = [] := by
  rw [Block.faults_relocate, List.map_eq_nil_iff]

theorem Block.faults_number_eq_nil_iff {b : Block α} :
    Block.faults σ (Block.number b) = [] ↔ Block.faults σ b = [] := by
  rw [← Block.faults_relocate_eq_nil_iff id, Block.number, Block.relocate_numberFrom,
    Block.faults_relocate_eq_nil_iff]

theorem Block.extend_number (b : Block α) :
    Block.extend σ (Block.number b) = Block.extend σ b := by
  rw [← Block.extend_relocate id, Block.number, Block.relocate_numberFrom, Block.extend_relocate]

/-- Whether there are faults only depends on the types of the variables. -/
theorem Block.faults_eq_nil_congr (h : σ.ty? = τ.ty?) {b : Block α} :
    Block.faults σ b = [] ↔ Block.faults τ b = [] := by
  constructor <;> intro hf
  · obtain ⟨types, hb⟩ := Block.exists_wellTyped hf
    exact (hb.passes h.symm).1
  · obtain ⟨types, hb⟩ := Block.exists_wellTyped hf
    exact (hb.passes h).1

/-- If a program has no faults, all its names are those of variables after the check. -/
theorem Block.names_subset {b : Block α} (h : Block.faults σ b = []) :
    Block.names b ⊆ (Block.extend σ b).names := by
  intro x hx
  obtain ⟨t, ht⟩ := Block.Typed.exists_of_mem_names (Block.typed_of_faults_eq_nil h (.refl _)) hx
  refine Store.contains_iff.1 ?_
  rw [Store.contains, ← Option.isSome_map, ← Store.ty?, ht, Option.isSome_some]

theorem checkText_failure?_eq_none_iff {source : String} {program : Block Nat}
    (h : (parseProgram source).result = .ok program) :
    (checkText σ source).failure? = none ↔ Block.faults σ program = [] := by
  cases hf : Block.faults σ program <;> simp [checkText, h, checkProgram, hf]

end Check

/-! ## The run -/

theorem Store.eq_of_entries {τ : Type} {σ σ' : Store τ} (h : σ.entries = σ'.entries) : σ = σ' := by
  cases σ
  cases σ'
  cases h
  rfl

theorem Block.exec_append {α : Type} (a b : Block α) (r : Run) :
    Block.exec (a ++ b) r = (Block.exec a r).andThen (Block.exec b) := by
  induction a generalizing r with
  | nil => rfl
  | cons s a ih =>
    rw [List.cons_append, Block.exec_cons, Block.exec_cons]
    generalize s.exec r = result
    obtain ⟨r', _ | halt⟩ := result
    · exact ih r'
    · rfl

/-- Whether an event is output or a request for input. -/
def Event.isEffect : Event → Bool
  | wrote _ => true
  | asked => true
  | _ => false

namespace Outcome

/-- What was written, and the requests for lines, in order. -/
def effects (o : Outcome) : List Event := o.events.filter Event.isEffect

end Outcome

namespace Run

/-- The effects of a run. -/
def effects (r : Run) : List Event := (r.events.map RunEvent.toEvent).filter Event.isEffect

theorem count_trace (trace : List RunEvent) :
    (trace.map RunEvent.toEvent).count .asked = trace.count .read := by
  induction trace with
  | nil => rfl
  | cons e trace ih => cases e <;> simp [RunEvent.toEvent, ih]

/-- The effects do not tell positions. -/
theorem effects_of_follows {g : Pos → Pos} {base r r' : Run} (h : r.Follows g base.trace r') :
    r'.effects = base.effects ++ r.effects := by
  have hpos (trace : List RunEvent) :
      ((trace.map (RunEvent.relocate g)).map RunEvent.toEvent).filter Event.isEffect =
        (trace.map RunEvent.toEvent).filter Event.isEffect := by
    induction trace with
    | nil => rfl
    | cons e trace ih =>
      cases e <;> simp only [List.map_cons, RunEvent.relocate, RunEvent.toEvent, List.filter_cons,
        Event.isEffect, ih, if_true, if_false, Bool.false_eq_true]
  simp only [effects, events, h.trace, List.reverse_append, List.map_append, List.filter_append,
    ← List.map_reverse, hpos]

end Run

/-- The outcome shows what the result of a run is. -/
structure Outcome.Shows (o : Outcome) (result : Run.Result) : Prop where
  effects : o.effects = result.run.effects
  reads : o.reads = result.run.reads
  store : o.store = result.run.store
  failure? : o.failure? = result.halt?.map .halted

theorem Outcome.shows_ofRun {before : List Event} (h : before.filter Event.isEffect = [])
    (program : Block Nat) (σ : Store VarType) (lines : List (Option String)) :
    (ofRun before program σ lines).Shows (Block.exec program (.start σ lines)) where
  effects := by rw [Outcome.effects, ofRun, List.filter_append, h, List.nil_append, Run.effects]
  reads := by
    have hbefore : before.count .asked = 0 := by
      refine List.count_eq_zero.2 fun hmem => ?_
      have hasked : Event.asked ∈ before.filter Event.isEffect := List.mem_filter.2 ⟨hmem, rfl⟩
      rw [h] at hasked
      cases hasked
    rw [Outcome.reads, ofRun, List.count_append, hbefore, Nat.zero_add, Run.events,
      List.map_reverse, List.count_reverse, Run.count_trace, Run.reads]
  store := rfl
  failure? := rfl

/-- A program without faults is run, and nothing is written or read before. -/
theorem shows_runText {σ : Store VarType} {source : String} {program : Block Nat}
    (hp : (parseProgram source).result = .ok program) (hf : Block.faults σ program = [])
    (lines : List (Option String)) :
    (runText σ source lines).Shows
      (Block.exec program (.start (Block.extend σ program) lines)) := by
  rw [runText_eq_ofRun hp hf]
  exact Outcome.shows_ofRun (by simp [Logged.events, Event.isEffect]) ..

section Below

variable {σ : Store VarType} {a b : String} {p q : Block Nat}

/-- If two texts are programs, so is the one with the other below it: it has no faults if neither
    has any where it is checked, declares what both declare, and does what both do. -/
theorem exists_parseProgram_below (ha : (parseProgram a).result = .ok p)
    (hb : (parseProgram b).result = .ok q) :
    ∃ program, (parseProgram (a ++ "\n" ++ b)).result = .ok program ∧
      (∀ σ, Block.faults σ program = [] ↔
        Block.faults σ p = [] ∧ Block.faults (Block.extend σ p) q = []) ∧
      (∀ σ, Block.extend σ program = Block.extend (Block.extend σ p) q) ∧
      ∀ r, Block.exec program r = (Block.exec p r).andThen
        (Block.exec (Block.relocate (Pos.down (a.toList.count '\n' + 1)) q)) := by
  obtain ⟨p, hp, rfl⟩ := parseProgram_eq_ok_iff.1 ha
  obtain ⟨q, hq, rfl⟩ := parseProgram_eq_ok_iff.1 hb
  refine ⟨_, parseProgram_eq_ok_iff.2 ⟨_, Stream.parse_below hp hq, rfl⟩, fun σ => ?_, fun σ => ?_,
    fun r => ?_⟩
  · rw [Block.faults_number_eq_nil_iff, Block.faults_append, List.append_eq_nil_iff,
      Block.faults_relocate_eq_nil_iff, Block.faults_number_eq_nil_iff, Block.extend_number,
      Block.faults_number_eq_nil_iff]
  · rw [Block.extend_number, Block.extend_append, Block.extend_relocate, Block.extend_number,
      Block.extend_number]
  · rw [Block.exec_number, Block.exec_append, Block.exec_number, Block.number,
      Block.relocate_numberFrom]

/-- After the run of a program without faults, the check finds in another one what it finds right
    after the check of the first one. -/
theorem ty?_exec (hσ : σ.Fits false) (hp : Block.faults σ p = []) (lines : List (Option String)) :
    (Block.exec p (.start (Block.extend σ p) lines)).run.store.ty? = (Block.extend σ p).ty? :=
  (Block.exec_sound hσ hp lines).run.ty?_eq

/-- A program with the declarations of another one below it, which are there already, goes as it
    does alone. -/
theorem exec_extend_extend (hp : Block.faults σ p = [])
    (hq : Block.faults (Block.extend σ p) q = []) (lines : List (Option String)) :
    let alone := Block.exec p (.start (Block.extend σ p) lines)
    let result := Block.exec p (.start (Block.extend (Block.extend σ p) q) lines)
    alone.run.Extends (Block.names p) (Store.uninitialized (Block.declarations q)) result.run ∧
      result.halt? = alone.halt? :=
  Block.extends_exec p ⟨Block.names_subset hp, Block.entries_extend hq, rfl, rfl⟩

/-- When the first program has ended, the other one below it goes on as it starts alone, after the
    events until then. -/
theorem follows_start (hσ : σ.Fits false) (hp : Block.faults σ p = [])
    (hq : Block.faults (Block.extend σ p) q = []) (lines : List (Option String)) (g : Pos → Pos) :
    let alone := (Block.exec p (.start (Block.extend σ p) lines)).run
    (Run.start (Block.extend alone.store q) (lines.drop alone.reads)).Follows g alone.trace
      (Block.exec p (.start (Block.extend (Block.extend σ p) q) lines)).run := by
  intro alone
  have h := (exec_extend_extend hp hq lines).1
  refine ⟨Store.eq_of_entries ?_, ?_, h.trace⟩
  · have hq := (Block.faults_eq_nil_congr (ty?_exec hσ hp lines)).2 hq
    exact h.entries.trans (Block.entries_extend hq).symm
  · exact h.lines.trans (Block.lines_exec p rfl)

/-- Let two texts be programs. The one with the other below it passes its check, on variables
    that hold values of their types, if and only if the first one does, and the other one does on
    what the run of the first one leaves, whether that run fails or not. Then all is written and
    read at once as it is in two runs, of which the second one has the lines that the first one
    has left, unless the first one fails. If it does, all of it fails for the same reason there,
    and the variables are those of the first run, and after them the new ones of the other program,
    which hold nothing. If it does not, the variables in the end are those after the second run,
    and all of it fails if that run fails, for the same reason, as many lines further down as the
    first text has. -/
theorem runText_below (hσ : σ.Fits false) (ha : (parseProgram a).result = .ok p)
    (hb : (parseProgram b).result = .ok q) (lines : List (Option String)) :
    let source := a ++ "\n" ++ b
    let whole := runText σ source lines
    let first := runText σ a lines
    let second := runText first.store b (lines.drop first.reads)
    ((checkText σ source).failure? = none ↔
      (checkText σ a).failure? = none ∧ (checkText first.store b).failure? = none) ∧
    ((checkText σ source).failure? = none →
      match first.failure? with
      | some e => whole.failure? = some e ∧ whole.effects = first.effects ∧
          whole.store.entries =
            first.store.entries ++ Store.uninitialized (Block.declarations q)
      | none => whole.effects = first.effects ++ second.effects ∧ whole.store = second.store ∧
          whole.failure? =
            second.failure?.map (Failure.relocate (Pos.down (a.toList.count '\n' + 1)))) := by
  intro source whole first second
  obtain ⟨program, hprogram, hfaults, hextend, hexec⟩ := exists_parseProgram_below ha hb
  rw [checkText_failure?_eq_none_iff hprogram, checkText_failure?_eq_none_iff ha,
    checkText_failure?_eq_none_iff hb, hfaults]
  -- If the first program is not run, neither side holds.
  by_cases hp : Block.faults σ p = []
  case neg => exact ⟨by simp [hp], fun h => absurd h.1 hp⟩
  have hfirst : first.Shows _ := shows_runText ha hp lines
  have hlater : Block.faults (Block.extend σ p) q = [] ↔ Block.faults first.store q = [] := by
    rw [hfirst.store]
    exact (Block.faults_eq_nil_congr (ty?_exec hσ hp lines)).symm
  refine ⟨by rw [hlater], fun ⟨_, hq⟩ => ?_⟩
  have hwhole : whole.Shows _ := shows_runText hprogram ((hfaults σ).2 ⟨hp, hq⟩) lines
  have hsecond : second.Shows _ := shows_runText hb (hlater.1 hq) _
  rw [hextend, hexec] at hwhole
  obtain ⟨hrun, hhalt⟩ := exec_extend_extend hp hq lines
  have hstart := follows_start hσ hp hq lines (Pos.down (a.toList.count '\n' + 1))
  dsimp only at hstart
  rw [← hfirst.store, ← hfirst.reads] at hstart
  generalize Block.exec p (.start (Block.extend σ p) lines) = alone at *
  generalize Block.exec p (.start (Block.extend (Block.extend σ p) q) lines) = result at *
  obtain ⟨r, halt⟩ := alone
  obtain ⟨r', halt'⟩ := result
  obtain rfl : halt' = halt := hhalt
  have heffects : r'.effects = r.effects := by rw [Run.effects, Run.events, hrun.trace]; rfl
  cases halt' with
  | some h =>
    rw [hfirst.failure?]
    refine ⟨hwhole.failure?, hwhole.effects.trans (heffects.trans hfirst.effects.symm), ?_⟩
    rw [hwhole.store, hfirst.store]
    exact hrun.entries
  | none =>
    rw [hfirst.failure?]
    obtain ⟨hend, hhalt⟩ := Block.follows_exec _ q hstart
    refine ⟨?_, ?_, ?_⟩
    · rw [hwhole.effects, hfirst.effects, hsecond.effects]
      exact Run.effects_of_follows hend
    · rw [hwhole.store, hsecond.store]
      exact hend.store
    · rw [hwhole.failure?, hsecond.failure?, Option.map_map]
      refine (congrArg (Option.map Failure.halted) hhalt).trans ?_
      rw [Option.map_map]
      rfl

/-- A variable that the first program reads, and by which the other one divides. -/
theorem runText_below_of_division :
    let a := "var n : int;\nread n;"
    let b := "print 8 / n;"
    (Store.empty : Store VarType).Fits false ∧ (∃ p, (parseProgram a).result = .ok p) ∧
      (∃ q, (parseProgram b).result = .ok q) ∧
      (checkText .empty (a ++ "\n" ++ b)).failure? = none ∧
      (runText .empty (a ++ "\n" ++ b) [some "0"]).failure? =
        some (.halted (.fault ⟨.divisionByZero, ⟨3, 9⟩⟩)) := by
  intro a b
  have ha : (checkText .empty a).failure? = none := by decide +kernel
  have hb : (checkText (Store.empty.declare "n" .int none) b).failure? = none := by decide +kernel
  obtain ⟨p, hp, -⟩ := exists_program_of_checkText ha
  obtain ⟨q, hq, -⟩ := exists_program_of_checkText hb
  have hcheck : (checkText .empty (a ++ "\n" ++ b)).failure? = none := by decide +kernel
  have hfirst : (runText .empty a [some "0"]).failure? = none := by decide +kernel
  have hrun := (runText_below Store.fits_empty hp hq [some "0"]).2 hcheck
  rw [hfirst] at hrun
  exact ⟨Store.fits_empty, ⟨p, hp⟩, ⟨q, hq⟩, hcheck, hrun.2.2.trans (by decide +kernel)⟩

end Below

end MiniPL
