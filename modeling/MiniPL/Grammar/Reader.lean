import MiniPL.Grammar.Fault
import MiniPL.Syntax
import MiniPL.Token.Stream

/-!
# Reading tokens

A `Reader` goes through a stream of tokens. It shows the current item, and knows
where the token read last stood. What reads tokens is a `Reading`: it ends with a
result, or stops at a syntax fault, or stops because the stream breaks off at a
lexical fault. The latter happens as soon as the token before the fault is read, not
only when the item after it is looked at: a lexical fault takes precedence over all
that could still be said about the tokens before it.

A reading goes forward only (`Reading.Forward`), and one that reads a token leaves
fewer unread (`Reading.Consumes`).
-/

namespace MiniPL

/-- A place in a stream of tokens. -/
structure Reader where
  /-- The position of the token read last. -/
  last : Pos
  /-- The tokens not yet read, the current one first. -/
  unread : List Token
  /-- How the stream ends. -/
  ending : Stream.End

namespace Reader

/-- The start of a stream. -/
def ofStream (s : Stream) : Reader := ⟨.start, s.tokens, s.ending⟩

/-- The current item, unless the stream breaks off here. -/
def current (r : Reader) : Except Rejection Item :=
  match r.unread with
  | t :: _ => .ok (.token t)
  | [] => r.ending.outcome

/-- Where reading goes on after a fault. -/
inductive Resumption
  /-- With what follows the next semicolon. -/
  | resumed (r : Reader)
  /-- Nowhere: the program ends before the next semicolon. -/
  | ended (pos : Pos)
  /-- Nowhere: the stream breaks off. -/
  | broken (rejection : Rejection)

/-- Skips all tokens up to and including the next semicolon. -/
def skipStatement (r : Reader) : Resumption :=
  match r.unread.dropWhile (·.lexeme != .symbol .semicolon), r.ending with
  | [], .eof p => .ended p
  | [], .fault f => .broken f
  | [_], .fault f => .broken f
  | t :: rest, ending => .resumed ⟨t.pos, rest, ending⟩

end Reader

/-- How a reading comes out. -/
inductive Reading.Outcome (α : Type)
  /-- With a result, and the place where reading goes on. -/
  | read (a : α) (r : Reader)
  /-- With a syntax fault, and the place where it was found. -/
  | refused (fault : Located SyntaxFault) (r : Reader)
  /-- With the lexical fault at which the stream breaks off. -/
  | broken (rejection : Rejection)

/-- What reads tokens. -/
def Reading (α : Type) := Reader → Reading.Outcome α

namespace Reading

variable {α β : Type}

/-- Reads nothing. -/
@[inline] protected def pure (a : α) : Reading α := fun r => .read a r

/-- Reads with `x`, then goes on with what `f` makes of the result. -/
@[inline] protected def bind (x : Reading α) (f : α → Reading β) : Reading β := fun r =>
  match x r with
  | .read a r' => f a r'
  | .refused fault r' => .refused fault r'
  | .broken rejection => .broken rejection

instance : Monad Reading where
  pure := Reading.pure
  bind := Reading.bind

/-- Stops at a fault. -/
def refuse (fault : SyntaxFault) (pos : Pos) : Reading α := fun r =>
  .refused ⟨fault, pos⟩ r

/-- The current item. -/
def peek : Reading Item := fun r =>
  match r.current with
  | .ok item => .read item r
  | .error rejection => .broken rejection

/-- Reads the current token. The end of the program stays current. -/
def advance : Reading Unit := fun r =>
  match r.unread, r.ending with
  | [], _ => .read () r
  | [_], .fault rejection => .broken rejection
  | t :: rest, ending => .read () ⟨t.pos, rest, ending⟩

/-- Reads the current token, which must be of the given kind. -/
def expect (kind : Kind) : Reading Pos := do
  let item ← peek
  if item.kind = kind then
    advance
    return item.pos
  else refuse (.unexpected item.kind [kind]) item.pos

/-- Reads a name. -/
def expectName : Reading (Pos × String) := do
  match ← peek with
  | .token ⟨.name x, p⟩ =>
    advance
    return (p, x)
  | item => refuse (.unexpected item.kind [.name]) item.pos

/-- Reads a type. -/
def expectType : Reading Ty := do
  match ← peek with
  | .token ⟨.keyword .intK, _⟩ =>
    advance
    return .int
  | .token ⟨.keyword .stringK, _⟩ =>
    advance
    return .string
  | .token ⟨.keyword .boolK, _⟩ =>
    advance
    return .bool
  | item =>
    refuse (.unexpected item.kind [.keyword .intK, .keyword .stringK, .keyword .boolK]) item.pos

/-! ## Progress -/

/-- A reading that goes forward only. -/
structure Forward (x : Reading α) : Prop where
  read : ∀ {r r' : Reader} {a : α}, x r = .read a r' → r'.unread <:+ r.unread
  refused : ∀ {r r' : Reader} {fault : Located SyntaxFault},
    x r = .refused fault r' → r'.unread <:+ r.unread

/-- A reading that goes forward only, and has no result without having read a token. -/
structure Consumes (x : Reading α) : Prop extends Forward x where
  lt : ∀ {r r' : Reader} {a : α}, x r = .read a r' → r'.unread.length < r.unread.length

theorem pure_apply (a : α) (r : Reader) : (pure a : Reading α) r = .read a r := rfl

theorem bind_apply (x : Reading α) (f : α → Reading β) (r : Reader) :
    (x >>= f) r = match x r with
      | .read a r' => f a r'
      | .refused fault r' => .refused fault r'
      | .broken rejection => .broken rejection := rfl

theorem forward_pure (a : α) : Forward (pure a : Reading α) where
  read h := by cases h; exact List.suffix_rfl
  refused h := by cases h

theorem forward_refuse (fault : SyntaxFault) (pos : Pos) :
    Forward (refuse fault pos : Reading α) where
  read h := by cases h
  refused h := by cases h; exact List.suffix_rfl

theorem Forward.bind {x : Reading α} {f : α → Reading β} (hx : x.Forward)
    (hf : ∀ a, (f a).Forward) : (x >>= f).Forward where
  read {r _ _} h := by
    rw [bind_apply] at h
    cases hxr : x r with
    | read a s =>
      rw [hxr] at h
      exact ((hf a).read h).trans (hx.read hxr)
    | refused fault s => rw [hxr] at h; cases h
    | broken rejection => rw [hxr] at h; cases h
  refused {r _ _} h := by
    rw [bind_apply] at h
    cases hxr : x r with
    | read a s =>
      rw [hxr] at h
      exact ((hf a).refused h).trans (hx.read hxr)
    | refused fault s => rw [hxr] at h; cases h; exact hx.refused hxr
    | broken rejection => rw [hxr] at h; cases h

theorem forward_peek : peek.Forward where
  read {r _ _} h := by
    rw [peek] at h
    split at h <;> cases h
    exact List.suffix_rfl
  refused {r _ _} h := by
    rw [peek] at h
    split at h <;> cases h

theorem forward_advance : advance.Forward where
  read {r _ _} h := by
    obtain ⟨last, _ | ⟨t, _ | ⟨u, rest⟩⟩, _ | _⟩ := r <;> cases h <;> simp
  refused {r _ _} h := by
    obtain ⟨last, _ | ⟨t, _ | ⟨u, rest⟩⟩, _ | _⟩ := r <;> cases h

theorem forward_expect (kind : Kind) : (expect kind).Forward :=
  forward_peek.bind fun item => by
    split
    · exact forward_advance.bind fun _ => forward_pure _
    · exact forward_refuse _ _

theorem forward_expectName : expectName.Forward :=
  forward_peek.bind fun item => by
    split
    · exact forward_advance.bind fun _ => forward_pure _
    · exact forward_refuse _ _

theorem forward_expectType : expectType.Forward :=
  forward_peek.bind fun item => by
    split
    all_goals first
      | exact forward_refuse _ _
      | exact forward_advance.bind fun _ => forward_pure _

theorem Consumes.bind_left {x : Reading α} {f : α → Reading β} (hx : x.Consumes)
    (hf : ∀ a, (f a).Forward) : (x >>= f).Consumes where
  toForward := hx.toForward.bind hf
  lt {r _ _} h := by
    rw [bind_apply] at h
    cases hxr : x r with
    | read a s =>
      rw [hxr] at h
      exact Nat.lt_of_le_of_lt ((hf a).read h).length_le (hx.lt hxr)
    | refused fault s => rw [hxr] at h; cases h
    | broken rejection => rw [hxr] at h; cases h

theorem Consumes.bind_right {x : Reading α} {f : α → Reading β} (hx : x.Forward)
    (hf : ∀ a, (f a).Consumes) : (x >>= f).Consumes where
  toForward := hx.bind fun a => (hf a).toForward
  lt {r _ _} h := by
    rw [bind_apply] at h
    cases hxr : x r with
    | read a s =>
      rw [hxr] at h
      exact Nat.lt_of_lt_of_le ((hf a).lt h) (hx.read hxr).length_le
    | refused fault s => rw [hxr] at h; cases h
    | broken rejection => rw [hxr] at h; cases h

theorem consumes_refuse (fault : SyntaxFault) (pos : Pos) :
    Consumes (refuse fault pos : Reading α) where
  toForward := forward_refuse fault pos
  lt h := by cases h

/-- Reading a token of a given kind, which is not the end of the program. -/
theorem consumes_expect {kind : Kind} (hk : kind ≠ .eof) : (expect kind).Consumes where
  toForward := forward_expect kind
  lt {r _ _} h := by
    rw [expect, bind_apply] at h
    obtain ⟨last, _ | ⟨t, rest⟩, ending⟩ := r
    · cases ending with
      | eof q =>
        have hk' : Item.kind (.eof q) ≠ kind := fun e => hk e.symm
        simp [peek, Reader.current, Stream.End.outcome, hk', refuse] at h
      | fault f => simp [peek, Reader.current, Stream.End.outcome] at h
    · simp only [peek, Reader.current] at h
      split at h
      · rw [bind_apply] at h
        cases rest <;> cases ending <;> simp only [advance, pure_apply] at h <;> cases h <;> simp
      · cases h

/-- Reading a name. -/
theorem consumes_expectName : expectName.Consumes where
  toForward := forward_expectName
  lt {r _ _} h := by
    rw [expectName, bind_apply] at h
    obtain ⟨last, _ | ⟨t, rest⟩, ending⟩ := r
    · cases ending <;> simp [peek, Reader.current, Stream.End.outcome, refuse] at h
    · obtain ⟨_ | _ | x | _ | _, p⟩ := t
      case cons.name =>
        cases rest <;> cases ending <;>
          simp only [peek, Reader.current, bind_apply, advance, pure_apply] at h <;> cases h <;>
          simp
      all_goals cases h

end Reading

/-- After what is skipped, fewer tokens are left. -/
theorem Reader.length_lt_of_skipStatement {r r' : Reader}
    (h : r.skipStatement = .resumed r') : r'.unread.length < r.unread.length := by
  unfold skipStatement at h
  split at h
  · cases h
  · cases h
  · cases h
  · next t rest ending heq _ =>
    cases h
    have := (List.dropWhile_suffix (l := r.unread) (·.lexeme != .symbol .semicolon)).length_le
    rw [heq, List.length_cons] at this
    exact this

end MiniPL
