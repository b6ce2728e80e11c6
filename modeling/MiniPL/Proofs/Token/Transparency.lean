import MiniPL.Token.Lookahead

/-!
# Looking ahead changes nothing

A reader is asked for the next item, is asked to show that beforehand, and is asked what it handed
out last, in any order (`Lookahead.Call`), up to the first fault (`Lookahead.askAll`). Its replies
only depend on how many items it has handed out (`Lookahead.replies`). They are those of a reader
that is only asked for items, one after the other (`Lookahead.afterNext`), which hands out the
stream of the text (`Stream.outcome`).

The invariant is that the reader is the one that was only asked for items, or that one after it has
shown an item beforehand (`Lookahead.Follows`).
-/

namespace MiniPL

/-- At the end of a text, the end comes again, at the same position. -/
theorem Cursor.next_of_eof {c c' : Cursor} {p : Pos} (h : c.next = (.ok (.eof p), c')) :
    c'.next = (.ok (.eof p), c') := by
  unfold next at h
  split at h
  · cases h
  · next n _ =>
    dsimp only at h
    split at h
    · next hrest =>
      cases h
      have hmeasure : Gap.measure 0 (c.skip n).rest = .closed 0 := by rw [hrest, Gap.measure]
      rw [next, hmeasure]
      simp only [skip_zero, hrest]
    · split at h <;> cases h

/-- What comes after `n` tokens: the next one, or what ends the stream. -/
def Stream.outcome (s : Stream) (n : Nat) : Except Rejection Item :=
  match s.tokens[n]? with
  | some t => .ok (.token t)
  | none => s.ending.outcome

namespace Lookahead

/-- What a reader may be asked for. -/
inductive Call
  | next
  | peek
  /-- What was handed out last. -/
  | current
  deriving DecidableEq

/-- What a reader shows. -/
inductive Reply
  | nothing
  | item (i : Item)
  /-- In place of an item, what was read of a lexeme at fault. -/
  | illegal (shown : String) (pos : Pos)
  deriving DecidableEq

/-- What is shown for an outcome. -/
def Reply.ofOutcome : Except Rejection Item → Reply
  | .ok i => .item i
  | .error r => .illegal r.thing.shown r.pos

/-- What the reader shows as handed out last. -/
def current (l : Lookahead) : Reply :=
  match l.current? with
  | some outcome => .ofOutcome outcome
  | none => .nothing

/-- Asks a reader: its reply or a fault, and the reader after it. -/
def ask (l : Lookahead) : Call → Except Rejection Reply × Lookahead
  | .next => (l.next.1.map .item, l.next.2)
  | .peek => (l.peek.1.map .item, l.peek.2)
  | .current => (.ok l.current, l)

/-- Asks a reader several times, up to the first fault. -/
def askAll (l : Lookahead) : List Call → List (Except Rejection Reply) × Lookahead
  | [] => ([], l)
  | call :: calls =>
    match l.ask call with
    | (.ok reply, l) => (.ok reply :: (l.askAll calls).1, (l.askAll calls).2)
    | (.error r, l) => ([.error r], l)

/-- The reader after it has been asked for `n` items, and for nothing else. -/
def afterNext (l : Lookahead) : Nat → Lookahead
  | 0 => l
  | n + 1 => (l.afterNext n).next.2

/-- The replies, up to the first fault, of one that hands out `outcome 0`, `outcome 1`, …, of which
    it has handed out `n`. What comes next is shown, but not handed out, by `peek`. -/
def replies (outcome : Nat → Except Rejection Item) (n : Nat) :
    List Call → List (Except Rejection Reply)
  | [] => []
  | .next :: calls =>
    match outcome n with
    | .ok i => .ok (.item i) :: replies outcome (n + 1) calls
    | .error r => [.error r]
  | .peek :: calls =>
    match outcome n with
    | .ok i => .ok (.item i) :: replies outcome n calls
    | .error r => [.error r]
  | .current :: calls =>
    .ok (if n = 0 then .nothing else .ofOutcome (outcome (n - 1))) :: replies outcome n calls

theorem askAll_of_ok {l l' : Lookahead} {call : Call} {reply : Reply}
    (h : l.ask call = (.ok reply, l')) (calls : List Call) :
    l.askAll (call :: calls) = (.ok reply :: (l'.askAll calls).1, (l'.askAll calls).2) := by
  rw [askAll, h]

theorem askAll_of_error {l l' : Lookahead} {call : Call} {r : Rejection}
    (h : l.ask call = (.error r, l')) (calls : List Call) :
    l.askAll (call :: calls) = ([.error r], l') := by
  rw [askAll, h]

/-! ## One step -/

section Step

variable {l p : Lookahead} {i : Item} {r : Rejection}

theorem peeked?_pull (l : Lookahead) : l.pull.2.peeked? = l.peeked? := by
  rw [pull]
  split <;> rfl

theorem current?_pull (l : Lookahead) : l.pull.2.current? = l.current? := by
  rw [pull]
  split <;> rfl

/-- A reader that has just handed out an item shows none beforehand. -/
theorem peeked?_next (l : Lookahead) : l.next.2.peeked? = none := by
  rw [next]
  split
  · rfl
  · next h => exact (peeked?_pull l).trans h

theorem current?_next (l : Lookahead) : l.next.2.current? = some l.next.1 := by
  rw [next]
  split <;> rfl

theorem next_of_none (h : p.peeked? = none) :
    p.next = (p.pull.1, { p.pull.2 with current? := some p.pull.1 }) := by
  rw [next, h]

theorem peek_of_ok (h : p.peeked? = none) (hi : p.pull.1 = .ok i) :
    p.peek = (.ok i, { p.pull.2 with peeked? := some i }) := by
  rw [peek, h]
  simp only [hi]

theorem peek_of_error (h : p.peeked? = none) (hr : p.pull.1 = .error r) :
    p.peek = (.error r, { p.pull.2 with current? := some (.error r) }) := by
  rw [peek, h]
  simp only [hr]

/-- The reader `l` is the reader `p`, which shows no item beforehand, or it is `p` after that has
    shown one. -/
inductive Follows (p : Lookahead) : Lookahead → Prop
  | same : Follows p p
  | ahead {i : Item} : p.pull.1 = .ok i → Follows p p.peek.2

namespace Follows

variable (hp : p.peeked? = none)
include hp

/-- It hands out the same, and is the same reader then. -/
theorem next_eq (h : Follows p l) : l.next = p.next := by
  cases h with
  | same => rfl
  | ahead hi =>
    rw [peek_of_ok hp hi, next_of_none hp, hi, next]
    have hnone : p.pull.2.peeked? = none := (peeked?_pull p).trans hp
    rw [← hnone]

theorem current_eq (h : Follows p l) : l.current = p.current := by
  cases h with
  | same => rfl
  | ahead hi =>
    rw [peek_of_ok hp hi, current, current, ← current?_pull p]

/-- It shows beforehand what is handed out next. -/
theorem peek_fst (h : Follows p l) : l.peek.1 = p.next.1 := by
  rw [next_of_none hp]
  cases h with
  | same =>
    cases hpull : l.pull.1 with
    | ok i => rw [peek_of_ok hp hpull]
    | error r => rw [peek_of_error hp hpull]
  | ahead hi => rw [peek_of_ok hp hi, peek, hi]

/-- It still follows when it has shown an item. -/
theorem peek_snd (h : Follows p l) (hi : p.next.1 = .ok i) : Follows p l.peek.2 := by
  rw [next_of_none hp] at hi
  cases h with
  | same => exact .ahead hi
  | ahead hi' =>
    have hagain : p.peek.2.peek.2 = p.peek.2 := by rw [peek_of_ok hp hi', peek]
    rw [hagain]
    exact .ahead hi

/-- A fault that is met beforehand is remembered as one that is met. -/
theorem peek_error (h : Follows p l) (hr : p.next.1 = .error r) :
    l.peek.2.current = .ofOutcome (.error r) := by
  rw [next_of_none hp] at hr
  cases h with
  | same => rw [peek_of_error hp hr, current]
  | ahead hi => exact absurd (hi.symm.trans hr) nofun

end Follows

end Step

/-! ## All calls -/

theorem peeked?_afterNext (source : String) (n : Nat) :
    ((ofSource source).afterNext n).peeked? = none := by
  cases n with
  | zero => rfl
  | succ n => exact peeked?_next _

/-- What was handed out last is shown, if anything was. -/
theorem current_afterNext (source : String) (n : Nat) :
    ((ofSource source).afterNext n).current = if n = 0 then .nothing else
      .ofOutcome ((ofSource source).afterNext (n - 1)).next.1 := by
  cases n with
  | zero => rfl
  | succ n => rw [current, afterNext, current?_next]; rfl

/-- The replies of a reader up to the first fault, which it shows then as handed out last. -/
structure Replies (l : Lookahead) (calls : List Call) (expected : List (Except Rejection Reply)) :
    Prop where
  replies : (l.askAll calls).1 = expected
  current : ∀ r, .error r ∈ expected → (l.askAll calls).2.current = .ofOutcome (.error r)

theorem Replies.cons {l l' : Lookahead} {call : Call} {calls : List Call} {reply : Reply}
    {expected : List (Except Rejection Reply)} (h : l.ask call = (.ok reply, l'))
    (hcalls : Replies l' calls expected) : Replies l (call :: calls) (.ok reply :: expected) := by
  obtain ⟨hreplies, hcurrent⟩ := hcalls
  constructor
  · rw [askAll_of_ok h, hreplies]
  · rintro r (_ | ⟨_, hr⟩)
    rw [askAll_of_ok h]
    exact hcurrent r hr

theorem replies_of_error {l l' : Lookahead} {call : Call} {r : Rejection}
    (h : l.ask call = (.error r, l')) (hcurrent : l'.current = .ofOutcome (.error r))
    (calls : List Call) : Replies l (call :: calls) [.error r] := by
  constructor
  · rw [askAll_of_error h]
  · rintro r' (_ | ⟨_, ⟨⟩⟩)
    rw [askAll_of_error h]
    exact hcurrent

/-- A reader that follows one that was asked for `n` items only replies as that would go on. -/
theorem Follows.replies {source : String} {n : Nat} {l : Lookahead}
    (h : Follows ((ofSource source).afterNext n) l) (calls : List Call) :
    Replies l calls (replies (fun k => ((ofSource source).afterNext k).next.1) n calls) := by
  induction calls generalizing n l with
  | nil => exact ⟨rfl, nofun⟩
  | cons call calls ih =>
    have hp := peeked?_afterNext source n
    cases call with
    | next =>
      have hnext := h.next_eq hp
      rw [Lookahead.replies]
      cases hi : ((ofSource source).afterNext n).next.1 with
      | ok i =>
        have hask : l.ask .next = (.ok (.item i), (ofSource source).afterNext (n + 1)) := by
          rw [ask, hnext, hi]
          rfl
        exact .cons hask (ih .same)
      | error r =>
        have hask : l.ask .next = (.error r, (ofSource source).afterNext (n + 1)) := by
          rw [ask, hnext, hi]
          rfl
        exact replies_of_error hask (by rw [current, afterNext, current?_next, hi]) calls
    | peek =>
      have hpeek := h.peek_fst hp
      rw [Lookahead.replies]
      cases hi : ((ofSource source).afterNext n).next.1 with
      | ok i =>
        have hask : l.ask .peek = (.ok (.item i), l.peek.2) := by
          rw [ask, hpeek, hi]
          rfl
        exact .cons hask (ih (h.peek_snd hp hi))
      | error r =>
        have hask : l.ask .peek = (.error r, l.peek.2) := by
          rw [ask, hpeek, hi]
          rfl
        exact replies_of_error hask (h.peek_error hp hi) calls
    | current =>
      rw [Lookahead.replies, ← current_afterNext, ← h.current_eq hp]
      exact .cons rfl (ih h)

/-! ## The stream of the text -/

theorem afterNext_succ (l : Lookahead) (n : Nat) : l.afterNext (n + 1) = l.next.2.afterNext n := by
  induction n with
  | zero => rfl
  | succ n ih => rw [afterNext, ih, afterNext]

/-- A reader that is only asked for items hands out the stream of its text, and at the end of the
    text the end, again and again. -/
theorem next_afterNext (n : Nat) {c : Cursor} {current? : Option (Except Rejection Item)}
    (hn : n ≤ c.scan.1.tokens.length ∨ c.scan.1.fault? = none) :
    (afterNext ⟨c, false, current?, none⟩ n).next.1 = c.scan.1.outcome n := by
  have hpull : (⟨c, false, current?, none⟩ : Lookahead).next =
      (c.next.1, ⟨c.next.2, false, some c.next.1, none⟩) := rfl
  induction n generalizing c current? with
  | zero =>
    rw [afterNext, hpull]
    rcases hnext : c.next with ⟨r | t | p, c'⟩
    · rw [Cursor.scan_of_fault hnext]
      rfl
    · rw [Cursor.scan_of_token hnext]
      rfl
    · rw [Cursor.scan_of_eof hnext]
      rfl
  | succ n ih =>
    rw [afterNext_succ, hpull]
    rcases hnext : c.next with ⟨r | t | p, c'⟩
    · rw [Cursor.scan_of_fault hnext] at hn
      exact absurd hn (by simp [Stream.fault?])
    · rw [Cursor.scan_of_token hnext] at hn ⊢
      exact ih (hn.imp_left Nat.le_of_succ_le_succ) rfl
    · -- The end comes again from where it was found.
      have hagain := Cursor.scan_of_eof (Cursor.next_of_eof hnext)
      rw [Cursor.scan_of_eof hnext]
      refine (ih (.inr (by rw [hagain]; rfl)) rfl).trans ?_
      rw [hagain]
      rfl

theorem next_afterNext_ofSource {source : String} {n : Nat}
    (hn : n ≤ (Stream.ofSource source).tokens.length ∨ (Stream.ofSource source).fault? = none) :
    ((ofSource source).afterNext n).next.1 = (Stream.ofSource source).outcome n := by
  by_cases hne : source = ""
  · subst hne
    obtain rfl : n = 0 := by simpa [Stream.ofSource, Stream.fault?] using hn
    rfl
  · have huntold : decide (source = "") = false := decide_eq_false hne
    rw [Stream.ofSource, if_neg hne] at hn ⊢
    rw [ofSource, huntold]
    exact next_afterNext n hn

/-- Whatever a reader of a text is asked, and in whatever order, up to the first fault: when it has
    handed out `n` items, it hands out, and shows beforehand, what a reader hands out after `n`
    items that is asked for nothing else, and it tells the one before that as the last one, if there
    is one. A fault is met where that reader meets it, and is shown then in place of an item. That
    reader hands out the stream of the text, with the end again and again, or up to the fault. -/
theorem replies_ofSource (source : String) (calls : List Call) :
    let outcome := fun n => ((ofSource source).afterNext n).next.1
    ((ofSource source).askAll calls).1 = replies outcome 0 calls ∧
      (∀ r, .error r ∈ replies outcome 0 calls →
        ((ofSource source).askAll calls).2.current = .illegal r.thing.shown r.pos) ∧
      ∀ n, n ≤ (Stream.ofSource source).tokens.length ∨ (Stream.ofSource source).fault? = none →
        outcome n = (Stream.ofSource source).outcome n := by
  intro outcome
  have h : Replies (ofSource source) calls (replies outcome 0 calls) :=
    Follows.replies (n := 0) .same calls
  exact ⟨h.replies, h.current, fun n hn => next_afterNext_ofSource hn⟩

end Lookahead

end MiniPL
