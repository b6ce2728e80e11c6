import MiniPL.Grammar.Statement

/-!
# Programs

    program ::= block eof
    block   ::= { statement ";" }

A program is parsed one step after the other. A step reads a whole statement, or
what opens a block, or the end of one; the blocks that are open are kept in a list,
the innermost first (`ParseState.outer`). Every step reads at least one token
(`ParseState.length_lt_of_step`), so parsing comes to an end.

Parsing goes on after syntax faults:

* a fault inside a statement drops the statement, and all tokens up to and including
  the next semicolon; parsing goes on in the block in which the statement started;
* if there is no semicolon left, that is one more fault, and the last one;
* a semicolon that is missing after a statement is noted, and parsing goes on at the
  same token;
* the end of the program inside a block is a fault, and the last one.

What happens is noted (`Note`), in order. A program is only accepted if no fault was
noted; and if the stream breaks off at a lexical fault, that one is reported and the
faults noted before are forgotten.
-/

namespace MiniPL

/-- What may happen while a program is parsed. -/
inductive ParseEvent
  /-- An item is taken from the stream. -/
  | item (i : Item)
  /-- A fault is found. -/
  | fault (f : Located SyntaxFault)
  /-- A statement is complete, but for the semicolon after it. -/
  | parsed (title : String) (pos : Pos)
  deriving DecidableEq, Repr

/-- An event, with the number of the tokens that were unread when it happened. -/
structure Note where
  unread : Nat
  event : ParseEvent
  deriving DecidableEq, Repr

/-- The fault that a note tells of, if it does. -/
def Note.fault? (n : Note) : Option (Located SyntaxFault) :=
  match n.event with
  | .fault f => some f
  | _ => none

/-- A block that is not closed yet. -/
structure OpenBlock where
  opener : Opener
  /-- The statements before it in the block around it, the last one first. -/
  before : List (Stmt Unit)

/-- A program, parsed up to some place. -/
structure ParseState where
  reader : Reader
  /-- The open blocks, the innermost first. -/
  outer : List OpenBlock
  /-- The statements of the innermost block, the last one first. -/
  done : List (Stmt Unit)

/-- How parsing a program ends. -/
inductive ParseState.End
  /-- At the end of the program, outside all blocks. -/
  | complete (program : Block Unit)
  /-- At the end of the program, with a fault. -/
  | stopped
  /-- Where the stream breaks off. -/
  | broken (rejection : Rejection)

/-- What a step comes to. -/
inductive ParseState.Step
  | go (notes : List Note) (next : ParseState)
  | halt (notes : List Note) (ending : ParseState.End)

namespace ParseState

/-- A note of a fault. -/
def noteFault (r : Reader) (fault : SyntaxFault) (pos : Pos) : Note :=
  ⟨r.unread.length, .fault ⟨fault, pos⟩⟩

/-- Goes on after a fault found at `r`, in the given block. -/
def recover (f : Located SyntaxFault) (r : Reader) (outer : List OpenBlock)
    (done : List (Stmt Unit)) : Step :=
  let note := noteFault r f.thing f.pos
  match r.skipStatement with
  | .resumed next => .go [note] ⟨next, outer, done⟩
  | .ended pos => .halt [note, ⟨0, .fault ⟨.missingSemicolon, pos⟩⟩] .stopped
  | .broken rejection => .halt [note] (.broken rejection)

/-- Goes on after the statement `s` in the given block, read up to `r`. -/
def finish (s : Stmt Unit) (r : Reader) (outer : List OpenBlock) (done : List (Stmt Unit)) :
    Step :=
  let note : Note := ⟨r.unread.length, .parsed s.title s.pos⟩
  match Reading.expect (.symbol .semicolon) r with
  | .read _ next => .go [note] ⟨next, outer, s :: done⟩
  | .refused .. => .go [note, noteFault r .missingSemicolon r.last] ⟨r, outer, s :: done⟩
  | .broken rejection => .halt [note] (.broken rejection)

/-- Goes on with `k` after reading with `x`, or after a fault in the given block. -/
def attempt {α : Type} (x : Reading α) (r : Reader) (outer : List OpenBlock)
    (done : List (Stmt Unit)) (k : α → Reader → Step) : Step :=
  match x r with
  | .read a next => k a next
  | .refused f next => recover f next outer done
  | .broken rejection => .halt [] (.broken rejection)

/-- One step. -/
def step (p : ParseState) : Step :=
  match p.reader.current with
  | .error rejection => .halt [] (.broken rejection)
  | .ok item =>
    match item, p.outer with
    | .eof _, [] => .halt [] (.complete p.done.reverse)
    | .eof pos, _ :: _ => .halt [noteFault p.reader .unclosedBlock pos] .stopped
    | .token ⟨.keyword .endK, _⟩, ⟨opener, before⟩ :: outer =>
      attempt (.closing opener) p.reader outer before fun _ r =>
        finish (opener.close p.done.reverse) r outer before
    | .token ⟨.keyword .elseK, _⟩, ⟨.ifThen pos cond, before⟩ :: outer =>
      attempt (.expect (.keyword .elseK)) p.reader p.outer p.done fun _ r =>
        .go [] ⟨r, ⟨.ifElse pos cond p.done.reverse, before⟩ :: outer, []⟩
    | _, _ =>
      attempt .start p.reader p.outer p.done fun start r =>
        match start with
        | .whole s => finish s r p.outer p.done
        | .opening o => .go [] ⟨r, ⟨o, p.done⟩ :: p.outer, []⟩

/-! ## Progress -/

variable {r : Reader} {outer : List OpenBlock} {done : List (Stmt Unit)} {notes : List Note}
  {next : ParseState}

theorem length_lt_of_recover {f : Located SyntaxFault}
    (h : recover f r outer done = .go notes next) :
    next.reader.unread.length < r.unread.length := by
  unfold recover at h
  split at h <;> cases h
  exact Reader.length_lt_of_skipStatement ‹_›

theorem length_le_of_finish {s : Stmt Unit} (h : finish s r outer done = .go notes next) :
    next.reader.unread.length ≤ r.unread.length := by
  unfold finish at h
  split at h <;> cases h
  · exact ((Reading.forward_expect _).read ‹_›).length_le
  · exact Nat.le_refl _

theorem length_lt_of_attempt {α : Type} {x : Reading α} {k : α → Reader → Step}
    (hx : x.Consumes) (h : attempt x r outer done k = .go notes next)
    (hk : ∀ a r', k a r' = .go notes next → next.reader.unread.length ≤ r'.unread.length) :
    next.reader.unread.length < r.unread.length := by
  unfold attempt at h
  split at h
  · next a r' hr => exact Nat.lt_of_le_of_lt (hk a r' h) (hx.lt hr)
  · next f r' hr => exact Nat.lt_of_lt_of_le (length_lt_of_recover h) (hx.refused hr).length_le
  · cases h

/-- Every step reads at least one token. -/
theorem length_lt_of_step {p : ParseState} (h : p.step = .go notes next) :
    next.reader.unread.length < p.reader.unread.length := by
  unfold step at h
  split at h
  · cases h
  split at h
  · cases h
  · cases h
  · exact length_lt_of_attempt (Reading.consumes_closing _) h fun _ _ => length_le_of_finish
  · refine length_lt_of_attempt (Reading.consumes_expect (by decide)) h fun _ _ hk => ?_
    cases hk
    exact Nat.le_refl _
  · refine length_lt_of_attempt Reading.consumes_start h fun a _ hk => ?_
    cases a with
    | whole s => exact length_le_of_finish hk
    | opening o =>
      cases hk
      exact Nat.le_refl _

/-! ## The whole program -/

/-- All steps: what is noted, and how they end. -/
def run (p : ParseState) : List Note × End :=
  match _ : p.step with
  | .go notes next => (notes ++ next.run.1, next.run.2)
  | .halt notes ending => (notes, ending)
termination_by p.reader.unread.length
decreasing_by all_goals exact length_lt_of_step ‹_›

theorem run_of_go {p : ParseState} (h : p.step = .go notes next) :
    p.run = (notes ++ next.run.1, next.run.2) := by
  rw [run]
  split <;> simp_all

theorem run_of_halt {p : ParseState} {ending : End} (h : p.step = .halt notes ending) :
    p.run = (notes, ending) := by
  rw [run]
  split <;> simp_all

/-- The start of a program. -/
def ofStream (s : Stream) : ParseState := ⟨.ofStream s, [], []⟩

end ParseState

/-- Why a program is not accepted. -/
inductive ParseFailure
  | lexical (rejection : Rejection)
  | syntactic (faults : List (Located SyntaxFault))
  deriving DecidableEq, Repr

/-- What parsing comes to. -/
structure Parse (α : Type) where
  notes : List Note
  /-- How many tokens are never read, the current one included. -/
  left : Nat
  result : Except ParseFailure α

/-- Parses a program. -/
def Stream.parse (s : Stream) : Parse (Block Unit) :=
  let (notes, ending) := (ParseState.ofStream s).run
  let result :=
    match ending, notes.filterMap Note.fault? with
    | .broken rejection, _ => .error (.lexical rejection)
    | .complete program, [] => .ok program
    | _, faults => .error (.syntactic faults)
  ⟨notes, 0, result⟩

/-- Reads an expression, which may have a semicolon after it, up to the end. -/
def Reading.loneExpr : Reading (Expr Unit) := do
  let e ← expr
  if (← peek).kind = .symbol .semicolon then advance
  match ← peek with
  | .eof _ => return e
  | item => refuse (.unexpected item.kind [.eof]) item.pos

/-- Parses a lone expression. Its first fault is the last one, but for the fault that
    there is no semicolon after it. -/
def Stream.parseExpr (s : Stream) : Parse (Expr Unit) :=
  match Reading.loneExpr (.ofStream s) with
  | .read e r => ⟨[], r.unread.length, .ok e⟩
  | .broken rejection => ⟨[], 0, .error (.lexical rejection)⟩
  | .refused f r =>
    let note := ParseState.noteFault r f.thing f.pos
    if f.thing = .nestedTooDeeply then ⟨[note], r.unread.length, .error (.syntactic [f])⟩
    else
      match r.skipStatement with
      | .resumed next => ⟨[note], next.unread.length, .error (.syntactic [f])⟩
      | .ended pos => ⟨[note], 0, .error (.syntactic [f, ⟨.missingSemicolon, pos⟩])⟩
      | .broken rejection => ⟨[note], 0, .error (.lexical rejection)⟩

namespace Parse

/-- The items of a stream as they are read, with the notes between them. Of the
    tokens, `unread` in number, the last `left` but one are never read. -/
def merge (left : Nat) (unread : Nat) (last : List Item) :
    List Token → List Note → List ParseEvent
  | [], notes => last.map .item ++ notes.map Note.event
  | t :: rest, notes =>
    let here := notes.takeWhile (·.unread == unread)
    .item (.token t) :: here.map Note.event ++
      if unread = left then []
      else merge left (unread - 1) last rest (notes.drop here.length)

/-- All that happens while the stream `s` is parsed. -/
def events {α : Type} (p : Parse α) (s : Stream) : List ParseEvent :=
  merge p.left s.tokens.length (s.items.drop s.tokens.length) s.tokens p.notes

end Parse

end MiniPL
