import MiniPL.Program
import MiniPL.Proofs.Evaluation.Types
import MiniPL.Proofs.Execution.Machine
import MiniPL.Proofs.Typing.Record

/-!
# Soundness of types

A program that has passed its check runs without getting stuck, on variables that hold
values of their types. The invariant of its run is that the variables are those after the
check, with the same types in the same order, and with values of their types
(`Run.Sound`), and that what is still to be done is typed (`Task.Safe`). Every step keeps
it (`Machine.Sound.step`), so it holds in all states (`Machine.Sound.reaches`).

In each of these states, every expression of the program has the type that the check has
recorded, and evaluates to a value of that type (`type_soundness`).
-/

namespace MiniPL

variable {α : Type} {strict : Bool} {τ : Store VarType}

/-! ## What the check leaves -/

mutual

theorem Stmt.fits_extend {σ : Store VarType} (hσ : σ.Fits strict) :
    (s : Stmt α) → (s.extend σ).Fits strict
  | .declare _ x ty _ => by
    rw [Stmt.extend]
    -- A declaration that is not new changes nothing.
    split
    · exact hσ
    · exact hσ.declare fun _ h => nomatch h
  | .assign .. => hσ
  | .forLoop _ _ _ _ body => Block.fits_extend hσ body
  | .ifThen _ _ body => Block.fits_extend hσ body
  | .ifElse _ _ body otherwise => Block.fits_extend (Block.fits_extend hσ body) otherwise
  | .print .. => hσ
  | .read .. => hσ
  | .assert .. => hσ

/-- Variables that are new after the check hold nothing. -/
theorem Block.fits_extend {σ : Store VarType} (hσ : σ.Fits strict) :
    (b : Block α) → (Block.extend σ b).Fits strict
  | [] => hσ
  | s :: rest => Block.fits_extend (s.fits_extend hσ) rest

end

/-! ## The invariant -/

/-- The variables are those of `τ`, and hold values of their types. -/
structure Run.Sound (strict : Bool) (τ : Store VarType) (r : Run) : Prop where
  signature : r.store.signature = τ.signature
  fits : r.store.Fits strict

/-- The variables are as they should be after a part of a run, and the run is not stuck. -/
structure Run.Result.Sound (strict : Bool) (τ : Store VarType) (result : Run.Result) : Prop where
  run : result.run.Sound strict τ
  ne_stuck : result.halt? ≠ some .stuck

/-- What is still to be done is typed, and stores no text in a `bool` if `strict`. -/
structure Task.Safe (strict : Bool) (τ : Store VarType) (t : Task α) : Prop where
  typed : match t with
    | .stmt s => s.Typed τ.ty?
    | .loop x body _ _ => τ.ty? x = some .int ∧ Block.Typed τ.ty? body
  inputs : strict → ∀ x ∈ (match t with
    | .stmt s => s.inputs
    | .loop _ body _ _ => Block.inputs body), τ.ty? x ≠ some .bool

namespace Run

variable {r : Run} {x : String} {ty : VarType} {v : Value}

theorem Sound.ty?_eq (h : r.Sound strict τ) : r.store.ty? = τ.ty? := Store.ty?_congr h.signature

/-- Expressions that are typed in `τ` evaluate to values of their types. -/
theorem Sound.yields (h : r.Sound strict τ) {e : Expr α} (he : e.HasType τ.ty? ty) :
    Yields strict ty (e.eval r.store) :=
  Expr.HasType.yields h.fits (h.ty?_eq ▸ he)

theorem Sound.log (h : r.Sound strict τ) (e : RunEvent) : (r.log e).Sound strict τ := ⟨h.1, h.2⟩

theorem Sound.goOn (h : r.Sound strict τ) : r.goOn.Sound strict τ := ⟨h, nofun⟩

theorem Sound.stop (h : r.Sound strict τ) {halt : Halt} (hhalt : halt ≠ .stuck) :
    (r.stop halt).Sound strict τ :=
  ⟨h, fun e => hhalt (Option.some.inj e)⟩

theorem Sound.withValue (h : r.Sound strict τ) {value : Except Halt Value}
    {k : Value → Result} (hv : Yields strict ty value)
    (hk : ∀ v, v.OfType strict ty → (k v).Sound strict τ) :
    (r.withValue value k).Sound strict τ := by
  cases value with
  | ok v => exact hk v hv
  | error halt => exact h.stop hv

theorem Sound.assign (h : r.Sound strict τ) (hx : τ.ty? x = some ty) (hv : v.OfType strict ty) :
    (r.assign x v).Sound strict τ := by
  rw [← h.ty?_eq] at hx
  obtain ⟨σ, hσ, hsig, hfits⟩ := h.fits.exists_assign? hx hv
  rw [Run.assign, hσ]
  exact Sound.goOn ⟨hsig.trans h.signature, hfits⟩

theorem Sound.declare (h : r.Sound strict τ) {value : Option Value} (hx : τ.ty? x = some ty)
    (hv : ∀ v ∈ value, v.OfType strict ty) :
    Sound strict τ { r with store := r.store.declare x ty value } where
  signature := by
    rw [← h.ty?_eq] at hx
    exact (Store.signature_declare hx value).trans h.signature
  fits := h.fits.declare hv

theorem Sound.write (h : r.Sound strict τ) (v : Value) : (r.write v).Sound strict τ := by
  rw [Run.write]
  split
  · exact (h.log _).goOn
  · exact h.stop nofun

theorem Sound.takeLine (h : r.Sound strict τ) : r.takeLine.2.Sound strict τ := by
  rw [Run.takeLine]
  split <;> exact ⟨h.1, h.2⟩

theorem integer_yields (line? : Option String) (p : Pos) :
    Yields strict .int (integer line? p) := by
  unfold integer
  split
  · nofun
  · split
    · nofun
    · split
      · exact Value.ofType_int_iff.2 ⟨_, rfl⟩
      · nofun

theorem Sound.input (h : r.Sound strict τ) {p : Pos} (hx : τ.ty? x = some ty)
    (hty : strict → ty ≠ .bool) : (r.input x p).Sound strict τ := by
  have hn := h.takeLine
  rw [Run.input, h.ty?_eq, hx]
  generalize r.takeLine = line at hn ⊢
  obtain ⟨line?, next⟩ := line
  dsimp only
  split
  · next heq =>
    -- Input for an `int` is an integer, or the run ends.
    obtain rfl := Option.some.inj heq
    exact hn.withValue (integer_yields _ p) fun v hv => hn.assign hx hv
  · next hint =>
    -- Any other input is stored as the text that it is.
    exact hn.assign hx (Value.ofType_text (fun e => hint (congrArg some e)) hty)

end Run

/-! ## Steps -/

theorem Block.safe_map {b : Block α} (hb : Block.Typed τ.ty? b)
    (hi : strict → ∀ x ∈ Block.inputs b, τ.ty? x ≠ some .bool) :
    ∀ t ∈ b.map Task.stmt, t.Safe strict τ := by
  intro t ht
  obtain ⟨s, hs, rfl⟩ := List.mem_map.1 ht
  exact ⟨Block.typed_iff.1 hb s hs, fun h x hx => hi h x (Block.mem_inputs_iff.2 ⟨s, hs, hx⟩)⟩

/-- A statement does its own part soundly, and leaves what is safe. -/
theorem Stmt.begin_sound {s : Stmt α} {r : Run} (hs : (Task.stmt s).Safe strict τ)
    (hr : r.Sound strict τ) :
    (s.begin r).1.Sound strict τ ∧ ∀ t ∈ (s.begin r).2, t.Safe strict τ := by
  obtain ⟨htyped, hinputs⟩ := hs
  have hlog := hr.log (.executing s.title s.pos)
  cases s with
  | declare p x ty init =>
    cases init with
    | none =>
      have hv : ∀ v ∈ (none : Option Value), v.OfType strict (.known ty) := nofun
      exact ⟨(hlog.declare htyped hv).goOn, nofun⟩
    | some e =>
      obtain ⟨hx, he⟩ := htyped
      refine ⟨hlog.withValue (hr.yields he) fun v hv => ?_, nofun⟩
      exact (hlog.declare hx (by simpa using hv)).goOn
  | assign p x e =>
    obtain ⟨ty, hx, he⟩ := htyped
    exact ⟨hlog.withValue (hr.yields he) fun v hv => hlog.assign hx hv, nofun⟩
  | forLoop p x a b body =>
    obtain ⟨hx, ha, hb, hbody⟩ := htyped
    have ha := hr.yields ha
    have hb := hr.yields hb
    rw [Stmt.begin]
    generalize a.eval r.store = first at ha ⊢
    generalize b.eval r.store = last at hb ⊢
    rcases first with halt | first
    · exact ⟨hlog.stop ha, nofun⟩
    rcases last with halt | last
    · exact ⟨hlog.stop hb, nofun⟩
    -- Both bounds are integers, so the loop is counted, and its turns are what is left.
    obtain ⟨i, rfl⟩ := Value.ofType_int_iff.1 ha
    obtain ⟨j, rfl⟩ := Value.ofType_int_iff.1 hb
    refine ⟨hlog.goOn, fun t ht => ?_⟩
    obtain rfl := List.mem_singleton.1 ht
    exact ⟨⟨hx, hbody⟩, hinputs⟩
  | ifThen p c body =>
    obtain ⟨hc, hbody⟩ := htyped
    have hc := hr.yields hc
    rw [Stmt.begin]
    generalize c.eval r.store = value at hc ⊢
    rcases value with halt | v
    · exact ⟨hlog.stop hc, nofun⟩
    refine ⟨hlog.goOn, ?_⟩
    dsimp only
    split
    · exact Block.safe_map hbody hinputs
    · exact nofun
  | ifElse p c body otherwise =>
    obtain ⟨hc, hbody, hotherwise⟩ := htyped
    have hc := hr.yields hc
    rw [Stmt.begin]
    generalize c.eval r.store = value at hc ⊢
    rcases value with halt | v
    · exact ⟨hlog.stop hc, nofun⟩
    refine ⟨hlog.goOn, ?_⟩
    dsimp only
    split
    · exact Block.safe_map hbody fun h x hx => hinputs h x (List.mem_append_left _ hx)
    · exact Block.safe_map hotherwise fun h x hx => hinputs h x (List.mem_append_right _ hx)
  | print p e =>
    obtain ⟨ty, he⟩ := htyped
    exact ⟨hlog.withValue (hr.yields he) fun v _ => hlog.write v, nofun⟩
  | read p x =>
    obtain ⟨ty, hx⟩ := htyped
    refine ⟨hlog.input hx fun h e => ?_, nofun⟩
    exact hinputs h x (List.mem_singleton.2 rfl) (e ▸ hx)
  | assert p c =>
    refine ⟨hlog.withValue (hr.yields htyped) fun v _ => ?_, nofun⟩
    split
    · exact hlog.goOn
    · exact hlog.stop nofun

namespace Machine

/-- The invariant of a machine. -/
structure Sound (strict : Bool) (τ : Store VarType) (m : Machine α) : Prop where
  run : m.run.Sound strict τ
  tasks : ∀ t ∈ m.tasks, t.Safe strict τ

/-- What the invariant says of where a step leads. -/
def Step.Sound (strict : Bool) (τ : Store VarType) : Step α → Prop
  | .go next => next.Sound strict τ
  | .halt result => result.Sound strict τ

theorem proceed_sound {result : Run.Result} {tasks : List (Task α)}
    (hr : result.Sound strict τ) (ht : ∀ t ∈ tasks, t.Safe strict τ) :
    (proceed result tasks).Sound strict τ := by
  obtain ⟨r, _ | halt⟩ := result
  · exact ⟨hr.run, ht⟩
  · exact hr

/-- Every step keeps the invariant, and is not stuck. -/
theorem Sound.step {m : Machine α} (h : m.Sound strict τ) : m.step.Sound strict τ := by
  obtain ⟨tasks, r⟩ := m
  obtain ⟨hr, htasks⟩ := h
  cases tasks with
  | nil => exact hr.goOn
  | cons t rest =>
    obtain ⟨ht, hrest⟩ := List.forall_mem_cons.1 htasks
    cases t with
    | stmt s =>
      obtain ⟨hresult, hleft⟩ := Stmt.begin_sound ht hr
      refine proceed_sound hresult fun t ht => ?_
      rcases List.mem_append.1 ht with ht | ht
      · exact hleft t ht
      · exact hrest t ht
    | loop x body turns k =>
      cases turns with
      | zero => exact ⟨hr, hrest⟩
      | succ turns =>
        -- A turn sets an `int`, and leaves its block, and then the other turns.
        obtain ⟨⟨hx, hbody⟩, hinputs⟩ := ht
        refine proceed_sound (hr.assign hx (Value.ofType_int_iff.2 ⟨k, rfl⟩)) fun t ht => ?_
        rcases List.mem_append.1 ht with ht | ht
        · exact Block.safe_map hbody hinputs t ht
        · rcases List.mem_cons.1 ht with rfl | ht
          · exact ⟨⟨hx, hbody⟩, hinputs⟩
          · exact hrest t ht

/-- All states of a run keep the invariant. -/
theorem Sound.reaches {m n : Machine α} (h : m.Sound strict τ) (hn : m.Reaches n) :
    n.Sound strict τ := by
  induction hn with
  | refl => exact h
  | step _ hs ih =>
    have := ih.step
    rwa [hs] at this

/-- So does the end of the run, and it is not stuck. -/
theorem Sound.ends {m : Machine α} (h : m.Sound strict τ) {result : Run.Result}
    (hresult : m.Ends result) : result.Sound strict τ := by
  obtain ⟨n, hn, hs⟩ := hresult
  have := (h.reaches hn).step
  rwa [hs] at this

/-- The invariant holds at the start of a program that is typed. -/
theorem sound_start {program : Block α} (hτ : τ.Fits strict) (ht : Block.Typed τ.ty? program)
    (hi : strict → ∀ x ∈ Block.inputs program, τ.ty? x ≠ some .bool)
    (lines : List (Option String)) : (start program (.start τ lines)).Sound strict τ where
  run := ⟨rfl, hτ⟩
  tasks := Block.safe_map ht hi

end Machine

/-! ## Checked programs -/

/-- What is parsed is a numbered program. -/
theorem exists_number_of_parseProgram {source : String} {program : Block Nat}
    (h : (parseProgram source).result = .ok program) :
    ∃ b : Block Unit, program = Block.number b := by
  unfold parseProgram at h
  dsimp only at h
  split at h
  · next b _ => exact ⟨b, (Except.ok.inj h).symm⟩
  · cases h

/-- A program that passes its check is parsed, and it has no faults. -/
theorem exists_program_of_checkText {σ : Store VarType} {source : String}
    (h : (checkText σ source).failure? = none) :
    ∃ program, (parseProgram source).result = .ok program ∧ Block.faults σ program = [] ∧
      (checkText σ source).store = Block.extend σ program := by
  rw [checkText] at h ⊢
  dsimp only at h ⊢
  cases hp : (parseProgram source).result with
  | error e => simp [hp] at h
  | ok program =>
    refine ⟨program, rfl, ?_⟩
    cases hf : Block.faults σ program with
    | nil => simp [checkProgram, hf]
    | cons f rest => simp [hp, checkProgram, hf] at h

/-- A program that has no faults is run, after it has been parsed and checked. -/
theorem runText_eq_ofRun {σ : Store VarType} {source : String} {program : Block Nat}
    (hp : (parseProgram source).result = .ok program) (hf : Block.faults σ program = [])
    (lines : List (Option String)) :
    runText σ source lines = .ofRun
      ((parseProgram source).events ++ (checkProgram σ program).events) program
      (Block.extend σ program) lines := by
  simp [runText, hp, checkProgram, hf]

theorem runText_of_faults_eq_nil {σ : Store VarType} {source : String} {program : Block Nat}
    (hp : (parseProgram source).result = .ok program) (hf : Block.faults σ program = [])
    (lines : List (Option String)) :
    ∃ events, runText σ source lines = .ofRun events program (Block.extend σ program) lines :=
  ⟨_, runText_eq_ofRun hp hf lines⟩

/-- What fails to be checked is not run. -/
theorem runText_eq_checkText {σ : Store VarType} {source : String} {e : Failure}
    (h : (checkText σ source).failure? = some e) (lines : List (Option String)) :
    runText σ source lines = checkText σ source := by
  unfold checkText at h ⊢
  unfold runText
  dsimp only at h ⊢
  cases hp : (parseProgram source).result with
  | error e' => rfl
  | ok program =>
    simp only [hp] at h ⊢
    cases hc : (checkProgram σ program).result with
    | ok τ => simp [hc] at h
    | error e' => rfl

/-- A program that passes its check, on variables that hold values of their types, runs
    without getting stuck: it ends with the last statement, with a run-time fault, or at
    a conversion that is refused. In all states of the run the variables are those after
    the check, with the same types in the same order, and hold values of their types;
    every expression has the type that was recorded for it, and evaluates to a value of
    that type, if to any, and so do the operands of its operator; it comes to the same
    value if types are looked up in the record. If no `bool` holds a text at the start,
    and the program reads into none, all truth values are `true` or `false` (`strict`). -/
theorem type_soundness {strict : Bool} {σ : Store VarType} {source : String}
    (hσ : σ.Fits strict) (h : (checkText σ source).failure? = none)
    (lines : List (Option String)) :
    ∃ program, (parseProgram source).result = .ok program ∧
      let τ := (checkText σ source).store
      let m := Machine.start program (.start τ lines)
      let result := Block.exec program (.start τ lines)
      (runText σ source lines).store = result.run.store ∧
      (runText σ source lines).failure? = result.halt?.map .halted ∧
      m.Ends result ∧
      ((strict → ∀ x ∈ Block.inputs program, τ.ty? x ≠ some .bool) →
        result.halt? ≠ some .stuck ∧ result.run.Sound strict τ ∧
        ∀ n, m.Reaches n → n.run.Sound strict τ ∧
          ∀ e ∈ Block.exprs program, ∃ ty,
            (Block.types σ program).lookup e.label = some (some ty) ∧
            e.ty? n.run.store = some ty ∧ Yields strict ty (e.eval n.run.store) ∧
            e.OperandsFit strict n.run.store ∧
            e.evalBy (fun label => ((Block.types σ program).lookup label).join) n.run.store =
              e.eval n.run.store) := by
  obtain ⟨program, hp, hfaults, hstore⟩ := exists_program_of_checkText h
  obtain ⟨b, rfl⟩ := exists_number_of_parseProgram hp
  obtain ⟨events, hrun⟩ := runText_of_faults_eq_nil hp hfaults lines
  refine ⟨Block.number b, hp, ?_⟩
  rw [hstore]
  intro τ m result
  -- The environment after the check is that of the whole run.
  have htyped : Block.Typed τ.ty? (Block.number b) := Block.typed_of_faults_eq_nil hfaults (.refl _)
  refine ⟨by rw [hrun]; rfl, by rw [hrun]; rfl, Machine.ends_exec _ _, fun hi => ?_⟩
  have hm : m.Sound strict τ := Machine.sound_start (Block.fits_extend hσ _) htyped hi lines
  have hresult : result.Sound strict τ := hm.ends (Machine.ends_exec _ _)
  refine ⟨hresult.ne_stuck, hresult.run, fun n hn => ?_⟩
  have hrun := (hm.reaches hn).run
  -- The record is right for every expression, as no type changes after the check.
  have hrecord : ∀ e ∈ Block.exprs (Block.number b), ∃ ty,
      (Block.types σ (Block.number b)).lookup e.label = some (some ty) ∧
        e.HasType τ.ty? ty ∧ e.HasType n.run.store.ty? ty := by
    intro e he
    obtain ⟨ty, hty⟩ := htyped.of_mem_exprs he
    refine ⟨ty, ?_, hty, hrun.ty?_eq ▸ hty⟩
    rw [Block.lookup_types hfaults (.refl _) he, hty.ty?_eq]
  refine ⟨hrun, fun e he => ?_⟩
  obtain ⟨ty, hlookup, hty, hty'⟩ := hrecord e he
  refine ⟨ty, hlookup, hty'.ty?_eq, hrun.yields hty, hty'.operandsFit hrun.fits, ?_⟩
  refine e.evalBy_eq fun e' he' => ?_
  obtain ⟨ty', hlookup', -, hty'⟩ := hrecord e' (Block.hereditary_exprs _ e he he')
  rw [hlookup', hty'.ty?_eq]
  rfl

/-- A truth value that is a text, and one that is read, in a program with a loop. -/
theorem type_soundness_of_text_in_bool :
    let σ := (Store.empty.declare "n" .int none).declare "t" .bool (some (.text "maybe"))
    let source := "var b : bool; read b; for n in 1 .. 3 do print n / 2; end for; assert (b & t);"
    σ.Fits false ∧ (checkText σ source).failure? = none ∧
      (runText σ source [some "no"]).failure? ≠ some (.halted .stuck) := by
  intro σ source
  have hn : (Store.empty.declare "n" VarType.int none).Fits false :=
    Store.fits_empty.declare (by simp)
  have hσ : σ.Fits false := hn.declare (by simp [Value.ofType_text])
  have h : (checkText σ source).failure? = none := by decide +kernel
  obtain ⟨program, _, _, hfailure, _, hsound⟩ := type_soundness hσ h [some "no"]
  refine ⟨hσ, h, fun hstuck => ?_⟩
  obtain ⟨hne, _⟩ := hsound nofun
  rw [hfailure] at hstuck
  obtain ⟨halt, hhalt, heq⟩ := Option.map_eq_some_iff.1 hstuck
  exact hne (Failure.halted.inj heq ▸ hhalt)

end MiniPL
