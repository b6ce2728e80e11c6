import MiniPL.Evaluation
import MiniPL.Text.Lines

/-!
# Running programs

A run has a store, the lines that are still to be read, and the trace of what has
happened so far (`Run`). A statement makes of it another run, and says why it ends
there if it does not go on (`Run.Result`); what had happened until then stays.

* A declaration that runs sets its variable anew, to its initial value or to none.
* A loop evaluates its bounds once, and counts by itself: it stores the count in its
  variable before each turn, whatever the block did with the variable.
* Input for a variable of type `int` must be an integer; other variables take the
  line as it is. After the last line there is no input: it is no integer, and empty
  as a text. Every input takes a line, also when it fails.
-/

namespace MiniPL

/-- What may happen in a run. -/
inductive RunEvent
  /-- A statement starts. -/
  | executing (title : String) (pos : Pos)
  | wrote (text : String)
  /-- A line is asked for. -/
  | read
  deriving DecidableEq, Repr

/-- The state of a run. -/
structure Run where
  store : Store VarType
  /-- The lines still to be read. One that is `none` is an end of input. -/
  lines : List (Option String)
  /-- What has happened, the last event first. -/
  trace : List RunEvent

/-- How a statement comes out: the run after it, and why the run ends there if it does. -/
structure Run.Result where
  run : Run
  halt? : Option Halt

namespace Run

/-- The run goes on. -/
def goOn (r : Run) : Result := ⟨r, none⟩

/-- The run ends. -/
def stop (r : Run) (h : Halt) : Result := ⟨r, some h⟩

/-- The run with one more event. -/
def log (r : Run) (e : RunEvent) : Run := { r with trace := e :: r.trace }

/-- Goes on with `k` and a value, or ends for want of the value. -/
def withValue {β : Type} (r : Run) (value : Except Halt β) (k : β → Result) : Result :=
  match value with
  | .ok b => k b
  | .error h => r.stop h

/-- Stores a value in a variable. -/
def assign (r : Run) (x : String) (v : Value) : Result :=
  match r.store.assign? x (some v) with
  | some σ => { r with store := σ }.goOn
  | none => r.stop .stuck

/-- Writes a value. -/
def write (r : Run) (v : Value) : Result :=
  match v.write with
  | .ok text => (r.log (.wrote text)).goOn
  | .error c => r.stop (.conversion c)

/-- The next line, and the run after reading it. -/
def takeLine (r : Run) : Option String × Run :=
  let r := r.log .read
  match r.lines with
  | [] => (none, r)
  | line :: rest => (line, { r with lines := rest })

/-- The integer on a line. -/
def integer (line? : Option String) (pos : Pos) : Except Halt Value :=
  match line? with
  | none => .error (.fault ⟨.notAnInteger, pos⟩)
  | some line =>
    match Text.Numeral.ofLine? line with
    | none => .error (.fault ⟨.notAnInteger, pos⟩)
    | some parts =>
      match parts.value line with
      | .ok n => .ok (.int n)
      | .error c => .error (.conversion c)

/-- Reads a line into a variable named at `pos`. -/
def input (r : Run) (x : String) (pos : Pos) : Result :=
  let (line?, next) := r.takeLine
  match r.store.ty? x with
  | some .int => next.withValue (integer line? pos) (next.assign x)
  | _ => next.assign x (.text (line?.getD ""))

/-- Runs `body` `turns` times, with `k`, `k + 1`, … stored in `x` before each turn. -/
def repeated (x : String) (body : Run → Result) : (turns : Nat) → (k : Int) → Run → Result
  | 0, _, r => r.goOn
  | turns + 1, k, r =>
    match r.assign x (.int k) with
    | ⟨r, none⟩ =>
      match body r with
      | ⟨r, none⟩ => repeated x body turns (k + 1) r
      | halted => halted
    | halted => halted

/-- Runs `body` with `x` going from `first` to `last`. -/
def counting (x : String) (first last : Value) (body : Run → Result) (r : Run) : Result :=
  match first.number?, last.number? with
  | some a, some b => repeated x body (b - a + 1).toNat a r
  | _, _ => r.stop .stuck

end Run

variable {α : Type}

mutual

/-- Runs a statement. -/
def Stmt.exec (s : Stmt α) (r : Run) : Run.Result :=
  let r := r.log (.executing s.title s.pos)
  match s with
  | .declare _ x ty none => { r with store := r.store.declare x (.known ty) none }.goOn
  | .declare _ x ty (some e) =>
    r.withValue (e.eval r.store) fun v =>
      { r with store := r.store.declare x (.known ty) (some v) }.goOn
  | .assign _ x e => r.withValue (e.eval r.store) (r.assign x)
  | .forLoop _ x a b body =>
    r.withValue (a.eval r.store) fun first =>
      r.withValue (b.eval r.store) fun last =>
        Run.counting x first last (Block.exec body) r
  | .ifThen _ c body =>
    r.withValue (c.eval r.store) fun v => if v.truthy then Block.exec body r else r.goOn
  | .ifElse _ c body otherwise =>
    r.withValue (c.eval r.store) fun v =>
      if v.truthy then Block.exec body r else Block.exec otherwise r
  | .print _ e => r.withValue (e.eval r.store) r.write
  | .read p x => r.input x p
  | .assert _ c =>
    r.withValue (c.eval r.store) fun v =>
      if v.truthy then r.goOn else r.stop (.fault ⟨.assertionFailed, c.pos⟩)

/-- Runs a block. -/
def Block.exec (b : Block α) (r : Run) : Run.Result :=
  match b with
  | [] => r.goOn
  | s :: rest =>
    match s.exec r with
    | ⟨r, none⟩ => Block.exec rest r
    | halted => halted

end

namespace Run

/-- The start of a run. -/
def start (σ : Store VarType) (lines : List (Option String)) : Run := ⟨σ, lines, []⟩

/-- What has happened, in order. -/
def events (r : Run) : List RunEvent := r.trace.reverse

/-- What has been written, in order. -/
def writes (r : Run) : List String :=
  r.events.filterMap fun
    | .wrote text => some text
    | _ => none

/-- How many lines have been asked for. -/
def reads (r : Run) : Nat := r.trace.count .read

end Run

end MiniPL
