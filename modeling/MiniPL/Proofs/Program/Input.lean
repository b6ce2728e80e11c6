import MiniPL.Proofs.Program.Pieces

/-!
# What a run takes of its input

A part of a run takes some of the lines that are there, from the first on, and depends on no
others: on input that begins with the same lines it does the same, takes as many lines of it, and
leaves the others (`Run.Takes`). Behind its last line, an input is as if there were ends of input.

How many lines are taken is found on the way, since what is done depends on the lines that have been
taken before. So one part after another takes lines again, whatever the first part has taken
(`Run.Reader.andThen`), and so does a whole program (`Block.reader_exec`): it only depends on the
lines that it asks for (`runText_eq_of_reads`).
-/

namespace MiniPL

variable {α : Type}

/-! ## Other input -/

/-- The run with other lines still to be read. -/
def Run.supply (r : Run) (lines : List (Option String)) : Run := { r with lines }

/-- The result with other lines still to be read. -/
def Run.Result.supply (result : Run.Result) (lines : List (Option String)) : Run.Result :=
  { result with run := result.run.supply lines }

/-- Two inputs are the same up to the line `n`. Behind its last line, an input has no lines, which
    is the same as ends of input. -/
def SameLines (n : Nat) (lines lines' : List (Option String)) : Prop :=
  ∀ i < n, lines'[i]?.join = lines[i]?.join

namespace SameLines

variable {m n : Nat} {lines lines' : List (Option String)}

theorem mono (h : SameLines n lines lines') (hmn : m ≤ n) : SameLines m lines lines' :=
  fun i hi => h i (Nat.lt_of_lt_of_le hi hmn)

theorem drop (h : SameLines (m + n) lines lines') :
    SameLines n (lines.drop m) (lines'.drop m) := by
  intro i hi
  rw [List.getElem?_drop, List.getElem?_drop]
  exact h (m + i) (Nat.add_lt_add_left hi m)

end SameLines

/-! ## Parts of a run -/

namespace Run

/-- The part `k` of a run takes `n` lines from `r` on, and depends on no others. -/
structure Takes (k : Run → Result) (r : Run) (n : Nat) : Prop where
  reads : (k r).run.reads = r.reads + n
  supply {lines : List (Option String)} : SameLines n r.lines lines →
    k (r.supply lines) = (k r).supply (lines.drop n)

/-- From everywhere on, the part `k` of a run depends on no other lines than those that it takes. -/
def Reader (k : Run → Result) : Prop := ∀ r, ∃ n, Takes k r n

variable {k k' : Run → Result} {r : Run} {n : Nat}

/-- The lines that are taken are those in front. -/
theorem Takes.lines (h : Takes k r n) : (k r).run.lines = r.lines.drop n :=
  congrArg (fun result => result.run.lines) (@h.supply r.lines fun _ _ => rfl)

theorem takes_zero (hreads : (k r).run.reads = r.reads)
    (h : ∀ lines, k (r.supply lines) = (k r).supply lines) : Takes k r 0 :=
  ⟨hreads, fun _ => h _⟩

theorem reader_of_takes_zero (h : ∀ r, Takes k r 0) : Reader k := fun r => ⟨0, h r⟩

theorem takes_goOn (r : Run) : Takes goOn r 0 := takes_zero rfl fun _ => rfl

theorem takes_stop (h : Halt) (r : Run) : Takes (stop · h) r 0 := takes_zero rfl fun _ => rfl

/-- One part after another takes its lines after those of the first. -/
theorem Reader.andThen (h : Reader k) (h' : Reader k') : Reader fun r => (k r).andThen k' := by
  intro r
  obtain ⟨n, hk⟩ := h r
  have hlines := hk.lines
  obtain ⟨hreads, hsupply⟩ := hk
  generalize hresult : k r = result at hlines hreads hsupply
  obtain ⟨q, _ | halt⟩ := result
  · obtain ⟨m, hm⟩ := h' q
    refine ⟨n + m, ?_, fun {lines} hsame => ?_⟩
    · rw [hresult, ← Nat.add_assoc, ← hreads]
      exact hm.reads
    · have hq : SameLines m q.lines (lines.drop n) := hlines ▸ hsame.drop
      rw [hresult, hsupply (hsame.mono (Nat.le_add_right n m)), ← List.drop_drop]
      exact hm.supply hq
  · refine ⟨n, ?_, fun {lines} hsame => ?_⟩
    · rw [hresult]
      exact hreads
    · rw [hresult, hsupply hsame]
      rfl

/-- Which part is run may depend on the store, which is the same for every input. -/
theorem Takes.congr (h : Takes k r n) (hk : ∀ lines, k' (r.supply lines) = k (r.supply lines)) :
    Takes k' r n := by
  have hr : k' r = k r := hk r.lines
  refine ⟨?_, fun {lines} hsame => ?_⟩
  · rw [hr]
    exact h.reads
  · rw [hk, hr]
    exact h.supply hsame

theorem Reader.evaluating (e : Expr α) {k : Value → Run → Result} (h : ∀ v, Reader (k v)) :
    Reader fun r => r.withValue (e.eval r.store) (k · r) := by
  intro r
  cases hv : e.eval r.store with
  | ok v =>
    obtain ⟨n, hn⟩ := h v r
    refine ⟨n, hn.congr fun lines => ?_⟩
    rw [show (r.supply lines).store = r.store from rfl, hv]
    rfl
  | error halt =>
    refine ⟨0, (takes_stop halt r).congr fun lines => ?_⟩
    rw [show (r.supply lines).store = r.store from rfl, hv]
    rfl

theorem reads_log (r : Run) {e : RunEvent} (he : e ≠ .read) : (r.log e).reads = r.reads :=
  List.count_cons_of_ne he

theorem Reader.executing (h : Reader k) (title : String) (p : Pos) :
    Reader fun r => k (r.log (.executing title p)) := by
  intro r
  obtain ⟨n, hn⟩ := h (r.log (.executing title p))
  have hreads : (r.log (.executing title p)).reads = r.reads := r.reads_log (by simp)
  exact ⟨n, hreads ▸ hn.reads, hn.supply⟩

theorem Reader.ite {c : Prop} [Decidable c] (h : Reader k) (h' : Reader k') :
    Reader fun r => if c then k r else k' r := by
  split
  · exact h
  · exact h'

theorem takes_assign (x : String) (v : Value) (r : Run) : Takes (assign · x v) r 0 := by
  refine takes_zero ?_ fun lines => ?_
  · rw [assign]
    split <;> rfl
  · rw [assign, assign, show (r.supply lines).store = r.store from rfl]
    split <;> rfl

theorem takes_write (v : Value) (r : Run) : Takes (write · v) r 0 := by
  refine takes_zero ?_ fun lines => ?_
  · rw [write]
    split
    · exact r.reads_log (by simp)
    · rfl
  · rw [write, write]
    split <;> rfl

/-- What a variable of a type takes from a line. -/
def received (ty? : Option VarType) (p : Pos) (line? : Option String) : Except Halt Value :=
  if ty? = some .int then integer line? p else .ok (.text (line?.getD ""))

theorem takeLine_eq (r : Run) :
    r.takeLine = (r.lines[0]?.join, (r.log .read).supply (r.lines.drop 1)) := by
  obtain ⟨σ, _ | ⟨line, rest⟩, trace⟩ := r <;> rfl

theorem input_eq (r : Run) (x : String) (p : Pos) :
    r.input x p =
      let next := (r.log .read).supply (r.lines.drop 1)
      next.withValue (received (r.store.ty? x) p r.lines[0]?.join) (next.assign x) := by
  rw [input, takeLine_eq, received]
  dsimp only
  split
  · next hty => rw [if_pos hty]
  · next hty => rw [if_neg hty]; rfl

/-- Input takes one line, whatever comes of it. -/
theorem takes_input (x : String) (p : Pos) (r : Run) : Takes (input · x p) r 1 := by
  have hstored (value : Except Halt Value) (q : Run) :
      Takes (fun q => q.withValue value (q.assign x)) q 0 := by
    cases value with
    | ok v => exact takes_assign x v q
    | error h => exact takes_stop h q
  refine ⟨?_, fun {lines} hsame => ?_⟩
  · rw [input_eq]
    exact (hstored _ _).reads.trans ((Nat.add_zero _).trans List.count_cons_self)
  · rw [input_eq, input_eq, show (r.supply lines).lines = lines from rfl, hsame 0 Nat.one_pos]
    exact (hstored _ ((r.log .read).supply (r.lines.drop 1))).supply nofun

theorem reader_repeated (x : String) {body : Run → Result} (hbody : Reader body) (turns : Nat) :
    ∀ k, Reader (repeated x body turns k) := by
  induction turns with
  | zero => exact fun _ => reader_of_takes_zero takes_goOn
  | succ turns ih =>
    intro k
    have hturn : Reader fun r => (r.assign x (.int k)).andThen fun r' =>
        (body r').andThen (repeated x body turns (k + 1)) :=
      (reader_of_takes_zero (takes_assign x (.int k))).andThen (hbody.andThen (ih (k + 1)))
    exact funext (repeated_succ x body turns k) ▸ hturn

theorem reader_counting (x : String) (first last : Value) {body : Run → Result}
    (hbody : Reader body) : Reader (counting x first last body) := by
  intro r
  unfold counting
  split
  · exact reader_repeated x hbody _ _ r
  · exact ⟨0, takes_stop .stuck r⟩

end Run

/-! ## Programs -/

mutual

theorem Stmt.reader_exec (s : Stmt α) : Run.Reader s.exec := by
  -- Every statement is logged first, and evaluates its expressions then.
  cases s with
  | declare p x ty init =>
    have hdeclare (value : Option Value) : Run.Reader fun r =>
        { r with store := r.store.declare x (.known ty) value }.goOn :=
      Run.reader_of_takes_zero fun r => Run.takes_zero rfl fun _ => rfl
    cases init with
    | none => exact (hdeclare none).executing _ _
    | some e => exact (Run.Reader.evaluating e fun v => hdeclare (some v)).executing _ _
  | assign p x e =>
    exact (Run.Reader.evaluating e fun v =>
      Run.reader_of_takes_zero (Run.takes_assign x v)).executing _ _
  | forLoop p x a b body =>
    exact (Run.Reader.evaluating a fun first => Run.Reader.evaluating b fun last =>
      Run.reader_counting x first last (Block.reader_exec body)).executing _ _
  | ifThen p c body =>
    exact (Run.Reader.evaluating c fun v =>
      (Block.reader_exec body).ite (Run.reader_of_takes_zero Run.takes_goOn)).executing _ _
  | ifElse p c body otherwise =>
    exact (Run.Reader.evaluating c fun v =>
      (Block.reader_exec body).ite (Block.reader_exec otherwise)).executing _ _
  | print p e =>
    exact (Run.Reader.evaluating e fun v =>
      Run.reader_of_takes_zero (Run.takes_write v)).executing _ _
  | read p x =>
    have hinput : Run.Reader (Run.input · x p) := fun r => ⟨1, Run.takes_input x p r⟩
    exact hinput.executing _ _
  | assert p c =>
    exact (Run.Reader.evaluating c fun v => (Run.reader_of_takes_zero Run.takes_goOn).ite
      (Run.reader_of_takes_zero (Run.takes_stop _))).executing _ _
termination_by structural s

/-- From everywhere on, a run of a block depends on no other lines than those that it takes. -/
theorem Block.reader_exec (b : Block α) : Run.Reader (Block.exec b) := by
  cases b with
  | nil => exact Run.reader_of_takes_zero Run.takes_goOn
  | cons s rest =>
    have hcons : Block.exec (s :: rest) = fun r => (s.exec r).andThen (Block.exec rest) :=
      funext (Block.exec_cons s rest)
    rw [hcons]
    exact (Stmt.reader_exec s).andThen (Block.reader_exec rest)
termination_by structural b

end

/-! ## Texts -/

section Texts

variable {σ : Store VarType} {source : String} {lines lines' : List (Option String)}

/-- A program that is run on another input, which has the same lines as far as they are asked for,
    does the same in the same order, fails for the same reason if it does, and leaves the same
    variables. -/
theorem runText_eq_of_reads (h : SameLines (runText σ source lines).reads lines lines') :
    runText σ source lines' = runText σ source lines := by
  cases hc : (checkText σ source).failure? with
  | some e => rw [runText_eq_checkText hc, runText_eq_checkText hc]
  | none =>
    obtain ⟨program, hp, hf, -⟩ := exists_program_of_checkText hc
    obtain ⟨n, hn⟩ := Block.reader_exec program (.start (Block.extend σ program) lines)
    rw [(shows_runText hp hf lines).reads, hn.reads] at h
    have hexec : Block.exec program (.start (Block.extend σ program) lines') = _ :=
      hn.supply (h.mono (Nat.le_add_left n _))
    rw [runText_eq_ofRun hp hf, runText_eq_ofRun hp hf, Outcome.ofRun, hexec]
    rfl

/-- An input that ends, and one that only seems to end, for a program that asks three times. -/
theorem runText_eq_of_reads_end :
    let source := "var i : int; var s : string; for i in 1 .. 2 do read s; print s; end for; read i;"
    let lines := [some "a"]
    let lines' := [some "a", none, none, some "7"]
    SameLines 3 lines lines' ∧ (runText .empty source lines').writes = ["a", ""] ∧
      runText .empty source lines' = runText .empty source lines := by
  intro source lines lines'
  have h : SameLines 3 lines lines' := by unfold SameLines; decide
  have hreads : (runText .empty source lines).reads = 3 := by decide +kernel
  have hrun : runText .empty source lines' = runText .empty source lines :=
    runText_eq_of_reads (hreads.symm ▸ h)
  refine ⟨h, ?_, hrun⟩
  rw [hrun]
  decide +kernel

end Texts

end MiniPL
