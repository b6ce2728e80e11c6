import MiniPL.Proofs.Grammar.Rules
import MiniPL.Proofs.Grammar.Takes

/-!
# Feeds

A `Feed` is a reader that is fed item by item and keeps account of it: of all items that it has
asked for, in order. Nothing keeps it from asking for more when the end of the program is current
already; it would be fed the end again, and this would be on the account. So the account shows
whether a reading asks for what there is and no more (`Feed.Onward`).

The rules of the grammar ask for no more (`Feeding.follows_start`, `Feeding.follows_closing`,
`Feeding.follows_loneExpr`): they come out on a feed as they do on its reader, and what they ask for
is what comes next, as they advance at a token only, be it that they expect its kind or that they
have looked at it.
-/

namespace MiniPL

/-- A reader that is fed item by item, and keeps account of it. After its tokens it is fed the end
    of the program, again and again if it asks for more. -/
structure Feed where
  /-- Where the item before the current one stood. -/
  last : Pos
  /-- The tokens not yet read, the current one first. -/
  unread : List Token
  /-- Where the program ends. -/
  eofPos : Pos
  /-- The items that have been asked for, in order, the current one last. -/
  pulled : List Item

namespace Feed

/-- The start of a stream: the first item has been asked for. -/
def start (ts : List Token) (p : Pos) : Feed := ⟨.start, ts, p, [Item.first ts (.eof p)]⟩

/-- The current item. -/
def current (f : Feed) : Item := Item.first f.unread (.eof f.eofPos)

/-- Asks for the next item. -/
def pull (f : Feed) : Feed :=
  let rest := f.unread.tail
  ⟨f.current.pos, rest, f.eofPos, f.pulled ++ [Item.first rest (.eof f.eofPos)]⟩

/-- The reader without its account. -/
def reader (f : Feed) : Reader := ⟨f.last, f.unread, .eof f.eofPos⟩

/-- The items that have not been asked for: those after the current one, up to the end. -/
def toCome (f : Feed) : List Item := (Stream.items ⟨f.unread, .eof f.eofPos⟩).tail

/-- The feed `g` comes after `f`: it has fewer tokens unread, or as many, and what has been asked
    for since then is what came next in the stream, with the end once at most. -/
structure Onward (f g : Feed) : Prop where
  suffix : g.unread <:+ f.unread
  eofPos : g.eofPos = f.eofPos
  pulled : g.pulled ++ g.toCome = f.pulled ++ f.toCome

variable {f g h : Feed}

theorem Onward.refl (f : Feed) : f.Onward f := ⟨List.suffix_rfl, rfl, rfl⟩

theorem Onward.trans (hfg : f.Onward g) (hgh : g.Onward h) : f.Onward h :=
  ⟨hgh.suffix.trans hfg.suffix, hgh.eofPos.trans hfg.eofPos, hgh.pulled.trans hfg.pulled⟩

/-- At the end of the program, nothing more is asked for. -/
theorem Onward.pulled_eq (h : f.Onward g) (hf : f.unread = []) : g.pulled = f.pulled := by
  have hg : g.unread = [] := List.suffix_nil.1 (hf ▸ h.suffix)
  have hp := h.pulled
  rw [toCome, toCome, hf, hg] at hp
  simpa [Stream.items] using hp

/-- Before the end of the program, the next item may be asked for. -/
theorem onward_pull {t : Token} {rest : List Token} (hf : f.unread = t :: rest) :
    f.Onward f.pull where
  suffix := by
    rw [pull, hf]
    exact List.suffix_cons t rest
  eofPos := rfl
  pulled := by
    rw [toCome, toCome, pull, hf]
    cases rest <;> simp [Stream.items]

theorem reader_pull {t : Token} {rest : List Token} (hf : f.unread = t :: rest) :
    Reading.advance f.reader = .read () f.pull.reader := by
  rw [reader, reader, pull, current, hf]
  cases rest <;> rfl

end Feed

/-- What reads from a feed: it comes out with a result or with a fault, and with the feed as it
    leaves it. -/
def Feeding (α : Type) := Feed → Except (Located SyntaxFault) α × Feed

namespace Feeding

variable {α β : Type}

/-- Reads with `x`, then goes on with what `k` makes of the result. -/
protected def bind (x : Feeding α) (k : α → Feeding β) : Feeding β := fun f =>
  match x f with
  | (.ok a, g) => k a g
  | (.error fault, g) => (.error fault, g)

instance : TokenReader Feeding where
  pure a f := (.ok a, f)
  bind := Feeding.bind
  peek f := (.ok f.current, f)
  advance f := (.ok (), f.pull)
  refuse fault pos f := (.error ⟨fault, pos⟩, f)

open TokenReader (peek advance refuse)

/-- From `f`, the reading `x` comes out as `y` does from the same place, and asks for nothing but
    what comes next. -/
def FollowsAt (f : Feed) (x : Feeding α) (y : Reading α) : Prop :=
  y f.reader = .of (x f).1 (x f).2.reader ∧ f.Onward (x f).2

/-- The reading `x` comes out as `y` does, and asks for nothing but what comes next. -/
def Follows (x : Feeding α) (y : Reading α) : Prop := ∀ f, FollowsAt f x y

variable {f : Feed} {x : Feeding α} {y : Reading α} {k : α → Feeding β} {l : α → Reading β}

/-- A result on a feed. -/
theorem Follows.read {a : α} {g : Feed} (h : Follows x y) (hx : x f = (.ok a, g)) :
    y f.reader = .read a g.reader ∧ f.Onward g := by
  have h := h f
  rwa [FollowsAt, hx] at h

/-- A fault on a feed. -/
theorem Follows.refused {fault : Located SyntaxFault} {g : Feed} (h : Follows x y)
    (hx : x f = (.error fault, g)) : y f.reader = .refused fault g.reader ∧ f.Onward g := by
  have h := h f
  rwa [FollowsAt, hx] at h

theorem followsAt_pure (a : α) : FollowsAt f (pure a) (pure a) := ⟨rfl, .refl f⟩

theorem followsAt_refuse (fault : SyntaxFault) (pos : Pos) :
    FollowsAt f (refuse fault pos : Feeding α) (refuse fault pos) := ⟨rfl, .refl f⟩

theorem FollowsAt.bind (hx : FollowsAt f x y) (hk : ∀ a, Follows (k a) (l a)) :
    FollowsAt f (x >>= k) (y >>= l) := by
  have hbind : (x >>= k) f = match x f with
      | (.ok a, g) => k a g
      | (.error fault, g) => (.error fault, g) := rfl
  obtain ⟨hy, hfg⟩ := hx
  rw [FollowsAt, hbind, Reading.bind_apply, hy]
  clear hy
  generalize x f = o at hfg ⊢
  obtain ⟨_ | a, g⟩ := o
  · exact ⟨rfl, hfg⟩
  · exact ⟨(hk a g).1, hfg.trans (hk a g).2⟩

/-- After the current item has been looked at, reading goes on with it. -/
theorem FollowsAt.peek_bind {k : Item → Feeding β} {l : Item → Reading β}
    (h : ∀ item, f.current = item → FollowsAt f (k item) (l item)) :
    FollowsAt f (peek >>= k) (peek >>= l) := by
  have hy : (peek >>= l : Reading β) f.reader = l f.current f.reader := by
    obtain ⟨_, _ | ⟨_, _⟩, _, _⟩ := f <;> rfl
  rw [FollowsAt, hy]
  exact h _ rfl

/-- A token may be read. -/
theorem FollowsAt.advance_bind {k : Unit → Feeding β} {l : Unit → Reading β} {t : Token}
    (h : f.current = .token t) (hk : Follows (k ()) (l ())) :
    FollowsAt f (advance >>= k) (advance >>= l) := by
  obtain ⟨rest, hf⟩ := Item.exists_cons_of_first h
  exact FollowsAt.bind ⟨Feed.reader_pull hf, Feed.onward_pull hf⟩ fun _ => hk

theorem follows_expect {kind : Kind} (hk : kind ≠ .eof) :
    Follows (Rules.expect kind) (Rules.expect kind) := fun f =>
  .peek_bind fun item hf => by
    split
    · next h =>
      cases item with
      | token t => exact .advance_bind hf fun _ => followsAt_pure _
      | eof p => exact absurd h.symm hk
    · exact followsAt_refuse _ _

theorem follows_expectName : Follows Rules.expectName Rules.expectName := fun f =>
  .peek_bind fun item hf => by
    split
    · exact .advance_bind hf fun _ => followsAt_pure _
    · exact followsAt_refuse _ _

theorem follows_expectType : Follows Rules.expectType Rules.expectType := fun f =>
  .peek_bind fun item hf => by
    split
    all_goals first
      | exact followsAt_refuse _ _
      | exact .advance_bind hf fun _ => followsAt_pure _

/-! ## Expressions -/

/-- After the current item has been looked at as an operator, reading goes on with that. -/
theorem FollowsAt.peekOperator_bind {k : Option (BinOp × Pos) → Feeding β}
    {l : Option (BinOp × Pos) → Reading β}
    (h : ∀ o, f.current.operator? = o → FollowsAt f (k o) (l o)) :
    FollowsAt f (Rules.peekOperator >>= k) (Rules.peekOperator >>= l) := by
  have hx : (Rules.peekOperator >>= k) f = k f.current.operator? f := by
    obtain ⟨_, _ | ⟨_, _⟩, _, _⟩ := f <;> rfl
  have hy : (Rules.peekOperator >>= l : Reading β) f.reader = l f.current.operator? f.reader := by
    obtain ⟨_, _ | ⟨_, _⟩, _, _⟩ := f <;> rfl
  rw [FollowsAt, hx, hy]
  exact h _ rfl

theorem follows_operand {inner : Feeding (Expr Unit)} {inner' : Reading (Expr Unit)}
    (h : Follows inner inner') : Follows (Rules.operand inner) (Rules.operand inner') := fun f =>
  .peek_bind fun item hf => by
    split
    · exact .advance_bind hf fun _ => followsAt_pure _
    · exact .advance_bind hf fun _ => followsAt_pure _
    · exact .advance_bind hf fun _ => followsAt_pure _
    · exact .advance_bind hf fun _ => (h _).bind fun _ _ =>
        (follows_expect (by decide) _).bind fun _ _ => followsAt_pure _
    · exact followsAt_refuse _ _

theorem follows_negated {inner : Feeding (Expr Unit)} {inner' : Reading (Expr Unit)}
    (h : Follows inner inner') (p : Pos) :
    Follows (Rules.negated inner p) (Rules.negated inner' p) := fun _ =>
  (follows_operand h _).bind fun _ _ => .peek_bind fun item _ => .peekOperator_bind fun o _ => by
    split
    · exact followsAt_refuse _ _
    · exact followsAt_pure _

theorem follows_joined {inner : Feeding (Expr Unit)} {inner' : Reading (Expr Unit)}
    (h : Follows inner inner') : Follows (Rules.joined inner) (Rules.joined inner') := fun _ =>
  (follows_operand h _).bind fun _ _ => .peekOperator_bind fun o ho => by
    split
    · exact .advance_bind (Item.operator?_eq_some ho) fun _ =>
        (follows_operand h _).bind fun _ _ => followsAt_pure _
    · exact followsAt_pure _

theorem follows_exprWithin (depth : Nat) :
    Follows (Rules.exprWithin depth) (Rules.exprWithin depth) := by
  induction depth with
  | zero => exact fun _ => .peek_bind fun _ _ => followsAt_refuse _ _
  | succ depth ih =>
    refine fun _ => .peek_bind fun item hf => ?_
    split
    · exact .advance_bind hf (follows_negated ih _)
    · exact follows_joined ih _

theorem follows_expr : Follows Rules.expr Rules.expr := follows_exprWithin _

/-! ## Statements -/

theorem follows_declaration : Follows Rules.declaration Rules.declaration := fun _ =>
  (follows_expect (by decide) _).bind fun _ _ => (follows_expectName _).bind fun _ _ =>
    (follows_expect (by decide) _).bind fun _ _ => (follows_expectType _).bind fun _ _ =>
      .peek_bind fun item hf => by
        split
        · exact .advance_bind hf fun _ => (follows_expr _).bind fun _ _ => followsAt_pure _
        · exact followsAt_pure _

theorem follows_assignment : Follows Rules.assignment Rules.assignment := fun _ =>
  (follows_expectName _).bind fun _ _ => (follows_expect (by decide) _).bind fun _ _ =>
    (follows_expr _).bind fun _ _ => followsAt_pure _

theorem follows_output : Follows Rules.output Rules.output := fun _ =>
  (follows_expect (by decide) _).bind fun _ _ => (follows_expr _).bind fun _ _ => followsAt_pure _

theorem follows_input : Follows Rules.input Rules.input := fun _ =>
  (follows_expect (by decide) _).bind fun _ _ =>
    (follows_expectName _).bind fun _ _ => followsAt_pure _

theorem follows_assertion : Follows Rules.assertion Rules.assertion := fun _ =>
  (follows_expect (by decide) _).bind fun _ _ => (follows_expect (by decide) _).bind fun _ _ =>
    (follows_expr _).bind fun _ _ => (follows_expect (by decide) _).bind fun _ _ =>
      followsAt_pure _

theorem follows_loopHead : Follows Rules.loopHead Rules.loopHead := fun _ =>
  (follows_expect (by decide) _).bind fun _ _ => (follows_expectName _).bind fun _ _ =>
    (follows_expect (by decide) _).bind fun _ _ => (follows_expr _).bind fun _ _ =>
      (follows_expect (by decide) _).bind fun _ _ => (follows_expr _).bind fun _ _ =>
        (follows_expect (by decide) _).bind fun _ _ => followsAt_pure _

theorem follows_branchHead : Follows Rules.branchHead Rules.branchHead := fun _ =>
  (follows_expect (by decide) _).bind fun _ _ => (follows_expr _).bind fun _ _ =>
    (follows_expect (by decide) _).bind fun _ _ => followsAt_pure _

/-- What a statement starts with is read as a program is parsed. -/
theorem follows_start : Follows Rules.start Reading.start := by
  rw [← Rules.start_reading]
  refine fun f => .peek_bind fun item hf => ?_
  split
  · exact follows_declaration f
  · exact follows_assignment f
  · exact follows_loopHead f
  · exact follows_branchHead f
  · exact follows_output f
  · exact follows_input f
  · exact follows_assertion f
  · exact followsAt_refuse _ _

theorem follows_finish (e : Expr Unit) : Follows (Rules.finish e) (Rules.finish e) := fun _ =>
  .peek_bind fun item _ => by
    split
    · exact followsAt_pure _
    · exact followsAt_refuse _ _

/-- A lone expression is read as it is parsed. -/
theorem follows_loneExpr : Follows Rules.loneExpr Reading.loneExpr := by
  rw [← Rules.loneExpr_reading]
  refine fun f => (follows_expr f).bind fun e f => .peek_bind fun item hf => ?_
  split
  · next h =>
    cases item with
    | token t => exact .advance_bind hf (follows_finish e)
    | eof p => cases h
  · exact follows_finish e f

/-- The end of a block is read as a program is parsed. -/
theorem follows_closing (o : Opener) : Follows (Rules.closing o) (Reading.closing o) := by
  rw [← Rules.closing_reading]
  exact fun _ => (follows_expect (by simp) _).bind fun _ _ =>
    (follows_expect (by simp) _).bind fun _ _ => followsAt_pure _

end Feeding

end MiniPL
