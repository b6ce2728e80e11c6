import MiniPL.Proofs.Execution.Footprint
import MiniPL.Proofs.Program.Pieces

/-!
# Programs keep to their names

A program only looks at the variables that it names, and only changes its targets
(`runText_local`). Two stores that have the same variables of these names (`Store.Agree`) are the
same to it: its check finds the same in both, and leaves stores that agree again
(`Block.faults_of_agree`, `Block.agree_extend`); and a run does the same on both, and they agree
in all its states (`Block.agree_exec`).
-/

namespace MiniPL

variable {α : Type} {X : List String} {σ σ' : Store VarType}

/-! ## Stores that agree -/

namespace Store.Agree

theorem contains (h : σ.Agree X σ') {x : String} (hx : x ∈ X) : σ'.contains x = σ.contains x := by
  rw [Store.contains, h x hx, Store.contains]

theorem require (h : σ.Agree X σ') {x : String} (hx : x ∈ X) (p : Pos) :
    σ'.require x p = σ.require x p := by
  rw [Store.require, h.contains hx, Store.require]

theorem declare (h : σ.Agree X σ') (x : String) (ty : VarType) (value : Option Value) :
    (σ.declare x ty value).Agree X (σ'.declare x ty value) := by
  intro y hy
  rw [find?_declare, find?_declare, h y hy]

theorem modify (h : σ.Agree X σ') (x : String) (f : Cell VarType → Cell VarType) :
    (σ.modify x f).Agree X (σ'.modify x f) := by
  intro y hy
  rw [find?_modify, find?_modify, h y hy]

theorem declareNew (h : σ.Agree X σ') {x : String} (hx : x ∈ X) (ty : Ty) :
    (σ.declareNew x ty).Agree X (σ'.declareNew x ty) := by
  rw [Store.declareNew, Store.declareNew, h.contains hx]
  split
  · exact h
  · exact h.declare x _ none

end Store.Agree

/-! ## The check -/

mutual

theorem Operand.faults_of_agree (h : σ.Agree X σ') :
    (o : Operand α) → o.names ⊆ X → o.faults σ' = o.faults σ
  | .literal .., _ => rfl
  | .var p _, hx => h.require (hx (List.mem_singleton.2 rfl)) p
  | .group _ e, hx => e.faults_of_agree h hx

theorem Expr.faults_of_agree (h : σ.Agree X σ') :
    (e : Expr α) → e.names ⊆ X → e.faults σ' = e.faults σ
  | .single _ o, hx => o.faults_of_agree h hx
  | .negation _ _ o, hx => by
    rw [Expr.faults, o.faults_of_agree h hx, o.ty?_of_agree h hx, Expr.faults]
  | .binary _ l op p r, hx => by
    obtain ⟨hl, hr⟩ := List.append_subset.1 hx
    rw [Expr.faults, l.faults_of_agree h hl, r.faults_of_agree h hr, l.ty?_of_agree h hl,
      r.ty?_of_agree h hr, Expr.faults]

end

mutual

theorem Stmt.agree_extend {σ σ' : Store VarType} (h : σ.Agree X σ') :
    (s : Stmt α) → s.names ⊆ X → (s.extend σ).Agree X (s.extend σ')
  | .declare _ _ ty none, hs => h.declareNew (hs (List.mem_singleton.2 rfl)) ty
  | .declare _ _ ty (some _), hs => h.declareNew (hs List.mem_cons_self) ty
  | .assign .., _ => h
  | .forLoop _ _ _ _ body, hs =>
    Block.agree_extend h body (List.append_subset.1 (List.cons_subset.1 hs).2).2
  | .ifThen _ _ body, hs => Block.agree_extend h body (List.append_subset.1 hs).2
  | .ifElse _ _ body otherwise, hs => by
    obtain ⟨hs, hotherwise⟩ := List.append_subset.1 hs
    exact Block.agree_extend (Block.agree_extend h body (List.append_subset.1 hs).2) otherwise
      hotherwise
  | .print .., _ => h
  | .read .., _ => h
  | .assert .., _ => h

/-- Declarations make the same of stores that agree. -/
theorem Block.agree_extend {σ σ' : Store VarType} (h : σ.Agree X σ') :
    (b : Block α) → Block.names b ⊆ X → (Block.extend σ b).Agree X (Block.extend σ' b)
  | [], _ => h
  | s :: rest, hb => by
    obtain ⟨hs, hrest⟩ := List.append_subset.1 hb
    exact Block.agree_extend (s.agree_extend h hs) rest hrest

end

mutual

theorem Stmt.faults_of_agree {σ σ' : Store VarType} (h : σ.Agree X σ') :
    (s : Stmt α) → s.names ⊆ X → s.faults σ' = s.faults σ
  | .declare _ x _ none, hs => by
    rw [Stmt.faults, h.contains (hs (List.mem_singleton.2 rfl)), Stmt.faults]
  | .declare _ x ty (some e), hs => by
    obtain ⟨hx, he⟩ := List.cons_subset.1 hs
    -- The initial value is checked with the variables after the declaration.
    have hτ := h.declareNew hx ty
    simp only [Stmt.faults, h.contains hx]
    rw [Store.declareNew, Store.declareNew, h.contains hx] at hτ
    rw [e.faults_of_agree hτ he, e.ty?_of_agree hτ he]
  | .assign p x e, hs => by
    obtain ⟨hx, he⟩ := List.cons_subset.1 hs
    rw [Stmt.faults, h.require hx, h.ty? hx, e.faults_of_agree h he, e.ty?_of_agree h he,
      Stmt.faults]
  | .forLoop p x a b body, hs => by
    obtain ⟨hx, hs⟩ := List.cons_subset.1 hs
    obtain ⟨hs, hbody⟩ := List.append_subset.1 hs
    obtain ⟨ha, hb⟩ := List.append_subset.1 hs
    rw [Stmt.faults, h.require hx, h.ty? hx, a.faults_of_agree h ha, a.ty?_of_agree h ha,
      b.faults_of_agree h hb, b.ty?_of_agree h hb, Block.faults_of_agree h body hbody, Stmt.faults]
  | .ifThen p c body, hs => by
    obtain ⟨hc, hbody⟩ := List.append_subset.1 hs
    rw [Stmt.faults, c.faults_of_agree h hc, c.ty?_of_agree h hc,
      Block.faults_of_agree h body hbody, Stmt.faults]
  | .ifElse p c body otherwise, hs => by
    obtain ⟨hs, hotherwise⟩ := List.append_subset.1 hs
    obtain ⟨hc, hbody⟩ := List.append_subset.1 hs
    rw [Stmt.faults, c.faults_of_agree h hc, c.ty?_of_agree h hc,
      Block.faults_of_agree h body hbody,
      Block.faults_of_agree (Block.agree_extend h body hbody) otherwise hotherwise, Stmt.faults]
  | .print _ e, hs => e.faults_of_agree h hs
  | .read p x, hs => h.require (hs (List.mem_singleton.2 rfl)) p
  | .assert p c, hs => by
    rw [Stmt.faults, c.faults_of_agree h hs, c.ty?_of_agree h hs, Stmt.faults]

/-- The same is wrong with a block that only names variables of `X`. -/
theorem Block.faults_of_agree {σ σ' : Store VarType} (h : σ.Agree X σ') :
    (b : Block α) → Block.names b ⊆ X → Block.faults σ' b = Block.faults σ b
  | [], _ => rfl
  | s :: rest, hb => by
    obtain ⟨hs, hrest⟩ := List.append_subset.1 hb
    rw [Block.faults, s.faults_of_agree h hs,
      Block.faults_of_agree (s.agree_extend h hs) rest hrest, Block.faults]

end

/-! ## The run -/

/-- The runs have the same variables of `X`, the same lines, and the same events behind them. -/
structure Run.Agree (X : List String) (r r' : Run) : Prop where
  store : r.store.Agree X r'.store
  lines : r'.lines = r.lines
  trace : r'.trace = r.trace

theorem Run.simulation_agree (X : List String) : Run.Simulation id X (Run.Agree X) where
  agree h := h.store
  declare h _ _ ty value := ⟨h.store.declare _ ty value, h.lines, h.trace⟩
  modify h _ _ f := ⟨h.store.modify _ f, h.lines, h.trace⟩
  log h e _ := ⟨h.store, h.lines, by rw [Run.log, Run.log, h.trace, RunEvent.relocate_id]⟩
  takeLine {r r'} h := by
    dsimp only [takeLine, log]
    rw [h.lines, h.trace]
    split <;> exact ⟨rfl, h.store, rfl, rfl⟩

/-- Runs on stores that agree do the same, and end for the same reason. -/
theorem Block.agree_exec (b : Block α) {r r' : Run} (h : r.Agree (Block.names b) r') :
    (Block.exec b r).run.Agree (Block.names b) (Block.exec b r').run ∧
      (Block.exec b r').halt? = (Block.exec b r).halt? := by
  have hsim := Block.simulates (Run.simulation_agree (Block.names b)) b (List.Subset.refl _) h
  rw [Block.exec_relocate_id] at hsim
  have hhalt := hsim.halt?
  rw [funext Halt.relocate_id, Option.map_id'] at hhalt
  exact ⟨hsim.run, hhalt⟩

section Texts

variable {source : String} {program : Block Nat}

/-- A program that passes its check leaves all variables as they were, in their places, but those
    that it declares, assigns, reads or counts in, also if its run fails. On other variables, of
    which those that it names are the same, it passes its check too, does the same, in the same
    order, fails for the same reason if it does, and leaves the same variables of these names. -/
theorem runText_local (hp : (parseProgram source).result = .ok program)
    (h : (checkText σ source).failure? = none) (lines : List (Option String)) :
    let outcome := runText σ source lines
    σ.Retains (Block.targets program) outcome.store ∧
      ∀ σ', σ.Agree (Block.names program) σ' →
        let outcome' := runText σ' source lines
        (checkText σ' source).failure? = none ∧ outcome'.events = outcome.events ∧
          outcome'.failure? = outcome.failure? ∧
          outcome.store.Agree (Block.names program) outcome'.store := by
  have hf : Block.faults σ program = [] := (checkText_failure?_eq_none_iff hp).1 h
  intro outcome
  rw [show outcome = _ from runText_eq_ofRun hp hf lines]
  constructor
  · -- The declarations of the program come after the variables that were there.
    have hσ : σ.Retains (Block.targets program) σ := fun _ _ _ hi _ => hi
    exact Block.retains_exec program (hσ.of_append (Block.entries_extend hf))
  · intro σ' hσ' outcome'
    have hf' : Block.faults σ' program = [] :=
      (Block.faults_of_agree hσ' program (List.Subset.refl _)).trans hf
    rw [show outcome' = _ from runText_eq_ofRun hp hf' lines]
    have hstart : (Run.start (Block.extend σ program) lines).Agree (Block.names program)
        (.start (Block.extend σ' program) lines) :=
      ⟨Block.agree_extend hσ' program (List.Subset.refl _), rfl, rfl⟩
    obtain ⟨hrun, hhalt⟩ := Block.agree_exec program hstart
    refine ⟨(checkText_failure?_eq_none_iff hp).2 hf', ?_, ?_, hrun.store⟩
    · simp only [Outcome.ofRun, Run.events, hrun.trace, checkProgram, hf, hf', Logged.events]
    · exact congrArg (Option.map Failure.halted) hhalt

/-- A variable that the program only looks at, one that it does not name, and a run that fails. -/
theorem runText_local_of_division :
    let source := "var i : int; var d : int; for i in 0 .. n do read d; print n / d; end for;"
    let σ := (Store.empty.declare "n" .int (some (.int 8))).declare "z" .string (some (.text "s"))
    let σ' := (Store.empty.declare "z" .bool none).declare "n" .int (some (.int 8))
    let lines := [some "2", some "0"]
    (checkText σ source).failure? = none ∧
      (runText σ source lines).store.entries[0]? = some ("n", ⟨.int, some (.int 8)⟩) ∧
      (runText σ source lines).store.entries[1]? = some ("z", ⟨.string, some (.text "s")⟩) ∧
      (checkText σ' source).failure? = none ∧
      (runText σ' source lines).writes = ["4"] ∧
      (runText σ' source lines).failure? = some (.halted (.fault ⟨.divisionByZero, ⟨1, 62⟩⟩)) ∧
      (runText σ' source lines).store.value? "d" = some (.int 0) := by
  intro source σ σ' lines
  have h : (checkText σ source).failure? = none := by decide +kernel
  obtain ⟨program, hp, hparts⟩ := exists_eq_ok_of_toOption (x := (parseProgram source).result)
    (f := fun b => (Block.targets b, Block.names b))
    (b := (["i", "d", "i", "d"], ["i", "d", "i", "n", "d", "n", "d"])) (by decide +kernel)
  obtain ⟨htargets, hnames⟩ := Prod.mk.inj hparts
  have hlocal := runText_local hp h lines
  dsimp only at hlocal
  rw [htargets, hnames] at hlocal
  obtain ⟨hretains, hlocal⟩ := hlocal
  obtain ⟨hcheck, hevents, hfailure, hstore⟩ := hlocal σ' (by unfold Store.Agree; decide +kernel)
  refine ⟨h, hretains (by decide +kernel) (by decide), hretains (by decide +kernel) (by decide),
    hcheck, ?_, ?_, ?_⟩
  · rw [Outcome.writes, hevents]
    decide +kernel
  · rw [hfailure]
    decide +kernel
  · rw [Store.value?, hstore "d" (by decide)]
    decide +kernel

end Texts

end MiniPL
