import MiniPL.Token.Gap
import MiniPL.Token.Recognition

/-!
# Streams of tokens

A cursor stands somewhere in a program text. `Cursor.next` skips the gap there and
takes the lexeme after it: the outcome is a token, the end of the program, or a
lexical fault. Positions are only kept by `Cursor.skip`, which moves a cursor over
characters; gaps and lexemes are found by their lengths alone.

A *stream* is what a whole text comes to: its tokens, up to the end of the program
or to the first fault (`Cursor.scan`, `Stream.ofSource`). That an end is never
missing, and never has tokens after it, is in the type.
-/

namespace MiniPL

/-- What may be next in a program: a token, or the end of the program. -/
inductive Item
  | token (t : Token)
  | eof (pos : Pos)
  deriving DecidableEq, Repr

namespace Item

/-- The kind of an item. -/
def kind : Item → Kind
  | token t => t.lexeme.kind
  | eof _ => .eof

/-- Where an item stands. -/
def pos : Item → Pos
  | token t => t.pos
  | eof p => p

/-- What an item shows. The end of the program shows nothing. -/
def shown : Item → String
  | token t => t.lexeme.shown
  | eof _ => ""

/-- The kind of an item, with what it shows in parentheses if it shows anything. -/
def text (item : Item) : String :=
  if item.shown = "" then item.kind.label else s!"{item.kind.label}({item.shown})"

end Item

/-- A place in a program text: its position, and the text from there on. -/
structure Cursor where
  pos : Pos
  rest : List Char
  deriving DecidableEq, Repr

namespace Cursor

/-- The start of a text. -/
def ofText (s : String) : Cursor := ⟨.start, s.toList⟩

/-- The cursor `n` characters later, or at the end of the text. -/
def skip (c : Cursor) (n : Nat) : Cursor :=
  ⟨c.pos.advance (c.rest.take n), c.rest.drop n⟩

@[simp] theorem skip_zero (c : Cursor) : c.skip 0 = c := rfl

@[simp] theorem rest_skip (c : Cursor) (n : Nat) : (c.skip n).rest = c.rest.drop n := rfl

@[simp] theorem pos_skip (c : Cursor) (n : Nat) : (c.skip n).pos = c.pos.advance (c.rest.take n) :=
  rfl

/-- The next item of a text, and the cursor after it; or a fault, and the cursor
    after what was read when it was found. -/
def next (c : Cursor) : Except Rejection Item × Cursor :=
  match Gap.measure 0 c.rest with
  | .unclosed n => (.error ⟨.unclosedComment, (c.skip n).pos⟩, c.skip c.rest.length)
  | .closed n =>
    let start := c.skip n
    match start.rest with
    | [] => (.ok (.eof start.pos), start)
    | ch :: cs =>
      match recognize ch cs with
      | .lexeme l length => (.ok (.token ⟨l, start.pos⟩), start.skip length)
      | .fault f offset length => (.error ⟨f, (start.skip offset).pos⟩, start.skip length)

/-- After a token, less of the text is left. -/
theorem length_rest_lt_of_next {c c' : Cursor} {t : Token} (h : c.next = (.ok (.token t), c')) :
    c'.rest.length < c.rest.length := by
  unfold next at h
  split at h
  · cases h
  · next n _ =>
    dsimp only at h
    split at h
    · cases h
    · next ch cs hrest =>
      split at h
      · next l length hl =>
        cases h
        have hpos := length_pos_of_recognize hl
        have hlt := congrArg List.length hrest
        simp only [rest_skip, List.length_drop, List.length_cons] at hlt ⊢
        omega
      · cases h

end Cursor

/-- How a stream ends. -/
inductive Stream.End
  /-- With the end of the program. -/
  | eof (pos : Pos)
  /-- With a fault. -/
  | fault (rejection : Rejection)
  deriving DecidableEq, Repr

/-- The tokens of a text, and how they end. -/
structure Stream where
  tokens : List Token
  ending : Stream.End
  deriving DecidableEq, Repr

namespace Stream

/-- The outcome of asking for what comes after the tokens. -/
def End.outcome : End → Except Rejection Item
  | eof p => .ok (.eof p)
  | fault r => .error r

/-- The fault that a stream ends with, if it does. -/
def fault? (s : Stream) : Option Rejection :=
  match s.ending with
  | .eof _ => none
  | .fault r => some r

/-- All items of a stream. -/
def items (s : Stream) : List Item :=
  s.tokens.map .token ++
    match s.ending with
    | .eof p => [.eof p]
    | .fault _ => []

end Stream

/-- The stream of the text from a cursor on, and the cursor when it ends. -/
def Cursor.scan (c : Cursor) : Stream × Cursor :=
  match _ : c.next with
  | (.ok (.token t), c') =>
    let (s, last) := c'.scan
    (⟨t :: s.tokens, s.ending⟩, last)
  | (.ok (.eof p), c') => (⟨[], .eof p⟩, c')
  | (.error r, c') => (⟨[], .fault r⟩, c')
termination_by c.rest.length
decreasing_by exact length_rest_lt_of_next ‹_›

namespace Cursor

variable {c c' : Cursor}

theorem scan_of_token {t : Token} (h : c.next = (.ok (.token t), c')) :
    c.scan = (⟨t :: c'.scan.1.tokens, c'.scan.1.ending⟩, c'.scan.2) := by
  rw [scan]
  split <;> simp_all

theorem scan_of_eof {p : Pos} (h : c.next = (.ok (.eof p), c')) :
    c.scan = (⟨[], .eof p⟩, c') := by
  rw [scan]
  split <;> simp_all

theorem scan_of_fault {r : Rejection} (h : c.next = (.error r, c')) :
    c.scan = (⟨[], .fault r⟩, c') := by
  rw [scan]
  split <;> simp_all

end Cursor

/-- The stream of a program. An empty text is no program. -/
def Stream.ofSource (source : String) : Stream :=
  if source = "" then ⟨[], .fault ⟨.emptySource, .start⟩⟩ else (Cursor.ofText source).scan.1

end MiniPL
