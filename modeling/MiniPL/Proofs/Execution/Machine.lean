import MiniPL.Execution

/-!
# Runs, step by step

A machine runs a program in steps: it holds the state of the run, and a list of what is
still to be done (`Task`). A step does a whole statement if that has no block. Otherwise
it evaluates what stands before the block, and puts the statements of the block that
is to run in front of the list; a loop puts its turns there, and each turn is one more
step, which sets the variable of the loop. A machine stops when nothing is left to be
done, or when a step fails.

The states that a run goes through are those of the machine (`Machine.Reaches`), and the
machine comes to the same end as the program (`Machine.ends_exec`).
-/

namespace MiniPL

variable {α : Type}

/-- Goes on with `f` after a result, unless that is an end. -/
def Run.Result.andThen (result : Run.Result) (f : Run → Run.Result) : Run.Result :=
  match result with
  | ⟨r, none⟩ => f r
  | halted => halted

theorem Block.exec_cons (s : Stmt α) (rest : Block α) (r : Run) :
    Block.exec (s :: rest) r = (s.exec r).andThen (Block.exec rest) := by
  rw [Block.exec]
  rfl

theorem Run.repeated_succ (x : String) (body : Run → Run.Result) (turns : Nat) (k : Int)
    (r : Run) :
    Run.repeated x body (turns + 1) k r =
      (r.assign x (.int k)).andThen fun r' =>
        (body r').andThen (Run.repeated x body turns (k + 1)) := by
  rw [Run.repeated]
  rfl

/-- What is still to be done in a run. -/
inductive Task (α : Type)
  | stmt (s : Stmt α)
  /-- Turns of a loop over `x`, with `k`, `k + 1`, … -/
  | loop (x : String) (body : Block α) (turns : Nat) (k : Int)

/-- What a statement does before its blocks, and what is left of it then. -/
def Stmt.begin (s : Stmt α) (r : Run) : Run.Result × List (Task α) :=
  let logged := r.log (.executing s.title s.pos)
  match s with
  | .forLoop _ x a b body =>
    match a.eval r.store, b.eval r.store with
    | .ok first, .ok last =>
      match first.number?, last.number? with
      | some i, some j => (logged.goOn, [.loop x body (j - i + 1).toNat i])
      | _, _ => (logged.stop .stuck, [])
    | .ok _, .error h => (logged.stop h, [])
    | .error h, _ => (logged.stop h, [])
  | .ifThen _ c body =>
    match c.eval r.store with
    | .ok v => (logged.goOn, if v.truthy then body.map .stmt else [])
    | .error h => (logged.stop h, [])
  | .ifElse _ c body otherwise =>
    match c.eval r.store with
    | .ok v => (logged.goOn, (if v.truthy then body else otherwise).map .stmt)
    | .error h => (logged.stop h, [])
  | _ => (s.exec r, [])

/-- A run, with what is still to be done. -/
structure Machine (α : Type) where
  tasks : List (Task α)
  run : Run

namespace Machine

/-- Where a step leads. -/
inductive Step (α : Type)
  | go (next : Machine α)
  | halt (result : Run.Result)

/-- Goes on with the tasks, unless the result is an end. -/
def proceed (result : Run.Result) (tasks : List (Task α)) : Step α :=
  match result with
  | ⟨r, none⟩ => .go ⟨tasks, r⟩
  | halted => .halt halted

/-- One step. -/
def step (m : Machine α) : Step α :=
  match m.tasks with
  | [] => .halt m.run.goOn
  | .stmt s :: rest => proceed (s.begin m.run).1 ((s.begin m.run).2 ++ rest)
  | .loop _ _ 0 _ :: rest => .go ⟨rest, m.run⟩
  | .loop x body (turns + 1) k :: rest =>
    proceed (m.run.assign x (.int k)) (body.map .stmt ++ .loop x body turns (k + 1) :: rest)

/-- The machine at the start of a program. -/
def start (program : Block α) (r : Run) : Machine α := ⟨program.map .stmt, r⟩

/-- The machine comes to another one in some steps. -/
inductive Reaches (m : Machine α) : Machine α → Prop
  | refl : Reaches m m
  | step {n n' : Machine α} : Reaches m n → n.step = .go n' → Reaches m n'

/-- The machine stops with the result. -/
def Ends (m : Machine α) (result : Run.Result) : Prop :=
  ∃ n, m.Reaches n ∧ n.step = .halt result

theorem Reaches.trans {l m n : Machine α} (h₁ : l.Reaches m) (h₂ : m.Reaches n) : l.Reaches n := by
  induction h₂ with
  | refl => exact h₁
  | step _ hs ih => exact ih.step hs

/-! ## The end of the program -/

/-- The machine comes to the result of its first tasks: to the state after them, with
    the `rest` still to be done, unless it stops before that. -/
def Does (m : Machine α) (rest : List (Task α)) (result : Run.Result) : Prop :=
  match result with
  | ⟨r, none⟩ => m.Reaches ⟨rest, r⟩
  | halted => m.Ends halted

variable {m n : Machine α} {mid rest : List (Task α)} {result : Run.Result}

theorem Reaches.does (h : m.Reaches n) (hn : n.Does rest result) : m.Does rest result := by
  obtain ⟨r, _ | halt⟩ := result
  · exact h.trans hn
  · obtain ⟨l, hl, hs⟩ := hn
    exact ⟨l, h.trans hl, hs⟩

theorem does_of_step (h : m.step = proceed result rest) : m.Does rest result := by
  obtain ⟨r, _ | halt⟩ := result
  · exact .step .refl h
  · exact ⟨m, .refl, h⟩

theorem Does.andThen {f : Run → Run.Result} (h : m.Does mid result)
    (hf : ∀ r, Does ⟨mid, r⟩ rest (f r)) : m.Does rest (result.andThen f) := by
  obtain ⟨r, _ | halt⟩ := result
  · exact Reaches.does h (hf r)
  · exact h

/-- The turns of a loop, if the machine does what its block does. -/
theorem does_repeated {x : String} {body : Block α}
    (hbody : ∀ rest r, Does ⟨body.map .stmt ++ rest, r⟩ rest (Block.exec body r)) (turns : Nat) :
    ∀ k r, Does ⟨.loop x body turns k :: rest, r⟩ rest
      (Run.repeated x (Block.exec body) turns k r) := by
  -- By induction on the turns that are left, with any number in the variable.
  induction turns with
  | zero => exact fun k r => .step .refl rfl
  | succ turns ih =>
    intro k r
    rw [Run.repeated_succ]
    exact (does_of_step rfl).andThen fun r' => (hbody _ r').andThen (ih (k + 1))

section Begin

variable {s : Stmt α} {r q : Run}

theorem step_stmt (s : Stmt α) (rest : List (Task α)) (r : Run) :
    step ⟨.stmt s :: rest, r⟩ = proceed (s.begin r).1 ((s.begin r).2 ++ rest) :=
  rfl

theorem does_of_begin_goOn {tasks : List (Task α)} (h : s.begin r = (q.goOn, tasks))
    (hn : Does ⟨tasks ++ rest, q⟩ rest result) : Does ⟨.stmt s :: rest, r⟩ rest result :=
  Reaches.does (.step .refl (by rw [step_stmt, h]; rfl)) hn

theorem does_of_begin_stop {e : Halt} (h : s.begin r = (q.stop e, [])) :
    Does ⟨.stmt s :: rest, r⟩ rest (q.stop e) :=
  does_of_step (by rw [step_stmt, h]; rfl)

end Begin

end Machine

mutual

theorem Stmt.does_exec (rest : List (Task α)) (r : Run) :
    (s : Stmt α) → Machine.Does ⟨.stmt s :: rest, r⟩ rest (s.exec r)
  | .declare .. => Machine.does_of_step rfl
  | .assign .. => Machine.does_of_step rfl
  | .forLoop p x a b body => by
    rw [Stmt.exec]
    change Machine.Does _ _ (Run.withValue _ (a.eval r.store) _)
    cases ha : a.eval r.store with
    | error h => exact Machine.does_of_begin_stop (by rw [Stmt.begin, ha])
    | ok first =>
      change Machine.Does _ _ (Run.withValue _ (b.eval r.store) _)
      cases hb : b.eval r.store with
      | error h => exact Machine.does_of_begin_stop (by rw [Stmt.begin, ha, hb])
      | ok last =>
        simp only [Run.withValue, Run.counting]
        -- Both bounds are numbers, or the run is stuck.
        split
        · next i j hi hj =>
          refine Machine.does_of_begin_goOn (by simp only [Stmt.begin, ha, hb, hi, hj]; rfl) ?_
          exact Machine.does_repeated (fun rest r => Block.does_exec rest r body) _ _ _
        · exact Machine.does_of_begin_stop (by simp only [Stmt.begin, ha, hb])
  | .ifThen p c body => by
    -- That the statement is logged does not change the store for its condition.
    rw [Stmt.exec]
    change Machine.Does _ _ (Run.withValue _ (c.eval r.store) _)
    cases hc : c.eval r.store with
    | error h => exact Machine.does_of_begin_stop (by rw [Stmt.begin, hc])
    | ok v =>
      refine Machine.does_of_begin_goOn (by rw [Stmt.begin, hc]) ?_
      simp only [Run.withValue]
      split
      · exact Block.does_exec rest _ body
      · exact .refl
  | .ifElse p c body otherwise => by
    rw [Stmt.exec]
    change Machine.Does _ _ (Run.withValue _ (c.eval r.store) _)
    cases hc : c.eval r.store with
    | error h => exact Machine.does_of_begin_stop (by rw [Stmt.begin, hc])
    | ok v =>
      refine Machine.does_of_begin_goOn (by rw [Stmt.begin, hc]) ?_
      simp only [Run.withValue]
      split
      · exact Block.does_exec rest _ body
      · exact Block.does_exec rest _ otherwise
  | .print .. => Machine.does_of_step rfl
  | .read .. => Machine.does_of_step rfl
  | .assert .. => Machine.does_of_step rfl

theorem Block.does_exec (rest : List (Task α)) (r : Run) :
    (b : Block α) → Machine.Does ⟨b.map .stmt ++ rest, r⟩ rest (Block.exec b r)
  | [] => .refl
  | s :: b => by
    -- Unless the first statement stops, the others are left to be done.
    rw [Block.exec_cons]
    exact (Stmt.does_exec _ r s).andThen fun r' => Block.does_exec rest r' b

end

namespace Machine

/-- The machine comes to the end that the program comes to. -/
theorem ends_exec (program : Block α) (r : Run) :
    (start program r).Ends (Block.exec program r) := by
  have h := Block.does_exec [] r program
  rw [List.append_nil] at h
  generalize Block.exec program r = result at h ⊢
  obtain ⟨r', _ | halt⟩ := result
  · exact ⟨_, h, rfl⟩
  · exact h

end Machine

end MiniPL
