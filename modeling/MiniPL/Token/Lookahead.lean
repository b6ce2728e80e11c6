import MiniPL.Token.Stream

/-!
# Reading a stream item by item

A `Lookahead` hands out the items of a program one after the other (`next`), and can
show the following one beforehand (`peek`). It remembers what it handed out last
(`current?`): an item, or the fault that it met. After a fault it can be asked
again, and goes on from where the fault left the cursor. After the end of the
program, the end comes again and again.

The fault of an empty text is met once, by the first item asked for.
-/

namespace MiniPL

/-- A reader of a program text. -/
structure Lookahead where
  cursor : Cursor
  /-- The text is empty, and nobody has been told yet. -/
  emptyUntold : Bool
  /-- The last outcome. -/
  current? : Option (Except Rejection Item)
  /-- The item shown beforehand. -/
  peeked? : Option Item

namespace Lookahead

/-- The reader at the start of a text. -/
def ofSource (source : String) : Lookahead :=
  ⟨.ofText source, source = "", none, none⟩

/-- The next outcome at the cursor, and the reader with the cursor after it. -/
def pull (l : Lookahead) : Except Rejection Item × Lookahead :=
  if l.emptyUntold then (.error ⟨.emptySource, .start⟩, { l with emptyUntold := false })
  else (l.cursor.next.1, { l with cursor := l.cursor.next.2 })

/-- Hands out the next item. -/
def next (l : Lookahead) : Except Rejection Item × Lookahead :=
  match l.peeked? with
  | some item => (.ok item, { l with current? := some (.ok item), peeked? := none })
  | none => (l.pull.1, { l.pull.2 with current? := some l.pull.1 })

/-- Shows the next item. A fault met thereby is remembered as the last outcome. -/
def peek (l : Lookahead) : Except Rejection Item × Lookahead :=
  match l.peeked? with
  | some item => (.ok item, l)
  | none =>
    match l.pull.1 with
    | .ok item => (.ok item, { l.pull.2 with peeked? := some item })
    | .error r => (.error r, { l.pull.2 with current? := some (.error r) })

/-- Hands out all items that are left, up to the end or to a fault. -/
def drain (l : Lookahead) : Stream × Lookahead :=
  match l.peeked? with
  | some (.eof p) => (⟨[], .eof p⟩, l.next.2)
  | some (.token t) =>
    let (s, last) := l.cursor.scan
    (⟨t :: s.tokens, s.ending⟩,
      { l with cursor := last, current? := some s.ending.outcome, peeked? := none })
  | none =>
    if l.emptyUntold then (⟨[], .fault ⟨.emptySource, .start⟩⟩, l.next.2)
    else
      let (s, last) := l.cursor.scan
      (s, { l with cursor := last, current? := some s.ending.outcome })

end Lookahead

end MiniPL
