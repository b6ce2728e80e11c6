import MiniPL.Proofs.Grammar.Breaks
import MiniPL.Proofs.Grammar.Independence
import MiniPL.Proofs.Syntax.Relocation

/-!
# Positions do not matter for parsing

Parsing never compares positions: it takes them from tokens, and puts them into trees and
faults. So a reading *carries* every function on positions (`Reading.Carries`): on tokens at
other positions it comes out alike, with all positions moved. The same holds of the steps of the
parser, and of all of parsing (`Stream.result_relocate`, `Stream.result_parseExpr_relocate`).

The position of the token read last is not that of a token at the start. It is related by any
relation that relates each position to where it is moved: to that place, or to anything.
-/

namespace MiniPL

variable {g : Pos → Pos} {L : Pos → Pos → Prop}

/-- The position `q'` is where `q` is moved. -/
def Pos.Moved (g : Pos → Pos) (q q' : Pos) : Prop := q' = g q

theorem Pos.moved (q : Pos) : Pos.Moved g q (g q) := rfl

/-- What opens a block, at other positions. -/
def Opener.relocate (g : Pos → Pos) : Opener → Opener
  | forLoop p x a b => forLoop (g p) x (a.relocate g) (b.relocate g)
  | ifThen p c => ifThen (g p) (c.relocate g)
  | ifElse p c body => ifElse (g p) (c.relocate g) (Block.relocate g body)

/-- What a statement starts with, at other positions. -/
def Start.relocate (g : Pos → Pos) : Start → Start
  | whole s => whole (s.relocate g)
  | opening o => opening (o.relocate g)

/-- The reader `r'` reads what `r` reads, at other positions. The positions of the last tokens are
    related by `L`. -/
structure Reader.Relocates (g : Pos → Pos) (L : Pos → Pos → Prop) (r r' : Reader) : Prop where
  last : L r.last r'.last
  unread : r'.unread = r.unread.map (·.relocate g)
  ending : r'.ending = r.ending.relocate g

namespace Reading

variable {α β γ δ : Type}

/-- The second outcome is the first one at other positions, with the result that `f` gives. -/
inductive Outcome.Relocates (g : Pos → Pos) (L : Pos → Pos → Prop) (f : α → β) :
    Outcome α → Outcome β → Prop
  | read {a : α} {r r' : Reader} (h : r.Relocates g L r') :
    Relocates g L f (.read a r) (.read (f a) r')
  | refused {fault : Located SyntaxFault} {r r' : Reader} (h : r.Relocates g L r') :
    Relocates g L f (.refused fault r) (.refused (fault.relocate g) r')
  | broken {rejection : Rejection} :
    Relocates g L f (.broken rejection) (.broken (rejection.relocate g))

/-- The readings come out alike at other positions, with the results that `f` relates. -/
def Carries (g : Pos → Pos) (L : Pos → Pos → Prop) (f : α → β) (x : Reading α)
    (x' : Reading β) : Prop :=
  ∀ r r', r.Relocates g L r' → Outcome.Relocates g L f (x r) (x' r')

variable {f : α → β} {h : γ → δ} {x : Reading α} {x' : Reading β}

theorem carries_pure (f : α → β) (a : α) : Carries g L f (pure a) (pure (f a)) :=
  fun _ _ hr => .read hr

theorem carries_refuse (f : α → β) (fault : SyntaxFault) (p : Pos) :
    Carries g L f (refuse fault p) (refuse fault (g p)) :=
  fun _ _ hr => .refused hr

theorem Carries.bind {y : α → Reading γ} {y' : β → Reading δ} (hx : Carries g L f x x')
    (hy : ∀ a, Carries g L h (y a) (y' (f a))) : Carries g L h (x >>= y) (x' >>= y') := by
  intro r r' hr
  have hxr := hx r r' hr
  rw [bind_apply, bind_apply]
  generalize x r = o, x' r' = o' at hxr
  cases hxr with
  | read hs => exact hy _ _ _ hs
  | refused hs => exact .refused hs
  | broken => exact .broken

/-! ## Single tokens -/

theorem carries_peek : Carries g L (Item.relocate g) peek peek := by
  rintro ⟨l, ts, e⟩ ⟨l', ts', e'⟩ hr
  obtain ⟨_, rfl, rfl⟩ := id hr
  rcases ts with _ | ⟨t, ts⟩
  · cases e with
    | eof p => exact .read hr
    | fault f => exact .broken
  · exact .read hr

/-- Reading a token, of which the position is the last one then. -/
theorem carries_advance (hL : ∀ p, L p (g p)) : Carries g L id advance advance := by
  rintro ⟨l, ts, e⟩ ⟨l', ts', e'⟩ hr
  obtain ⟨_, rfl, rfl⟩ := id hr
  rcases ts with _ | ⟨t, _ | ⟨u, ts⟩⟩
  · exact .read hr
  · cases e with
    | eof p => exact .read ⟨hL _, rfl, rfl⟩
    | fault f => exact .broken
  · cases e with
    | eof p => exact .read ⟨hL _, rfl, rfl⟩
    | fault f => exact .read ⟨hL _, rfl, rfl⟩

theorem carries_expect (hL : ∀ p, L p (g p)) (kind : Kind) :
    Carries g L g (expect kind) (expect kind) := by
  refine carries_peek.bind fun item => ?_
  rw [Item.kind_relocate, Item.pos_relocate]
  split
  · exact (carries_advance hL).bind fun _ => carries_pure g _
  · exact carries_refuse g _ _

theorem carries_expectName (hL : ∀ p, L p (g p)) :
    Carries g L (Prod.map g id) expectName expectName := by
  refine carries_peek.bind fun item => ?_
  rcases item with ⟨⟨l, p⟩⟩ | p
  · cases l with
    | name x => exact (carries_advance hL).bind fun _ => carries_pure (Prod.map g id) (p, x)
    | _ => exact carries_refuse _ _ p
  · exact carries_refuse _ _ p

theorem carries_expectType (hL : ∀ p, L p (g p)) : Carries g L id expectType expectType := by
  refine carries_peek.bind fun item => ?_
  rcases item with ⟨⟨l, p⟩⟩ | p
  · cases l with
    | keyword k =>
      cases k with
      | intK => exact (carries_advance hL).bind fun _ => carries_pure id _
      | stringK => exact (carries_advance hL).bind fun _ => carries_pure id _
      | boolK => exact (carries_advance hL).bind fun _ => carries_pure id _
      | _ => exact carries_refuse _ _ p
    | _ => exact carries_refuse _ _ p
  · exact carries_refuse _ _ p

/-! ## Expressions -/

theorem carries_peekOperator :
    Carries g L (Option.map (Prod.map id g)) peekOperator peekOperator := by
  refine carries_peek.bind fun item => ?_
  rcases item with ⟨⟨l, p⟩⟩ | p
  · have h : Carries g L (Option.map (Prod.map id g)) _ _ := carries_pure _ (l.binOp?.map (·, p))
    rw [Option.map_map] at h
    exact h
  · exact carries_pure (Option.map (Prod.map id g)) none

variable {inner : Reading (Expr Unit)}

theorem carries_operand (hL : ∀ p, L p (g p)) (hi : Carries g L (Expr.relocate g) inner inner) :
    Carries g L (Operand.relocate g) (operand inner) (operand inner) := by
  have hatom (o : Operand Unit) : Carries g L (Operand.relocate g) (advance >>= fun _ => pure o)
      (advance >>= fun _ => pure (o.relocate g)) :=
    (carries_advance hL).bind fun _ => carries_pure _ o
  refine carries_peek.bind fun item => ?_
  rcases item with ⟨⟨l, p⟩⟩ | p
  · cases l with
    | int digits => exact hatom (.literal p (.int digits))
    | text content => exact hatom (.literal p (.text content))
    | name x => exact hatom (.var p x)
    | symbol s =>
      cases s with
      | openParen =>
        exact (carries_advance hL).bind fun _ => hi.bind fun e =>
          (carries_expect hL _).bind fun _ => carries_pure (Operand.relocate g) (.group p e)
      | _ => exact carries_refuse _ _ p
    | keyword k => exact carries_refuse _ _ p
  · exact carries_refuse _ _ p

theorem carries_negated (hL : ∀ p, L p (g p)) (hi : Carries g L (Expr.relocate g) inner inner)
    (p : Pos) : Carries g L (Expr.relocate g) (negated inner p) (negated inner (g p)) := by
  refine (carries_operand hL hi).bind fun o => carries_peek.bind fun item =>
    carries_peekOperator.bind fun op? => ?_
  rcases op? with _ | ⟨op, q⟩
  · exact carries_pure (Expr.relocate g) (.negation () p o)
  · rw [Item.kind_relocate, Item.pos_relocate]
    exact carries_refuse _ _ _

theorem carries_joined (hL : ∀ p, L p (g p)) (hi : Carries g L (Expr.relocate g) inner inner) :
    Carries g L (Expr.relocate g) (joined inner) (joined inner) := by
  refine (carries_operand hL hi).bind fun l => carries_peekOperator.bind fun op? => ?_
  rcases op? with _ | ⟨op, q⟩
  · exact carries_pure (Expr.relocate g) (.single () l)
  · exact (carries_advance hL).bind fun _ => (carries_operand hL hi).bind fun r =>
      carries_pure (Expr.relocate g) (.binary () l op q r)

theorem carries_exprWithin (hL : ∀ p, L p (g p)) (depth : Nat) :
    Carries g L (Expr.relocate g) (exprWithin depth) (exprWithin depth) := by
  induction depth with
  | zero =>
    refine carries_peek.bind fun item => ?_
    rw [Item.pos_relocate]
    exact carries_refuse _ _ _
  | succ depth ih =>
    refine carries_peek.bind fun item => ?_
    rcases item with ⟨⟨l, p⟩⟩ | p
    · cases l with
      | symbol s =>
        cases s with
        | bang => exact (carries_advance hL).bind fun _ => carries_negated hL ih p
        | _ => exact carries_joined hL ih
      | _ => exact carries_joined hL ih
    · exact carries_joined hL ih

theorem carries_expr (hL : ∀ p, L p (g p)) : Carries g L (Expr.relocate g) expr expr :=
  carries_exprWithin hL _

/-! ## Statements -/

theorem carries_declaration (hL : ∀ p, L p (g p)) :
    Carries g L (Start.relocate g) declaration declaration := by
  refine (carries_expect hL _).bind fun _ => (carries_expectName hL).bind fun (p, x) =>
    (carries_expect hL _).bind fun _ => (carries_expectType hL).bind fun ty =>
      carries_peek.bind fun item => ?_
  have hnone : Carries g L (Start.relocate g) (pure (.whole (.declare p x ty none))) _ :=
    carries_pure _ _
  rcases item with ⟨⟨l, q⟩⟩ | q
  · cases l with
    | symbol s =>
      cases s with
      | assign =>
        exact (carries_advance hL).bind fun _ => (carries_expr hL).bind fun e =>
          carries_pure (Start.relocate g) (.whole (.declare p x ty (some e)))
      | _ => exact hnone
    | _ => exact hnone
  · exact hnone

theorem carries_assignment (hL : ∀ p, L p (g p)) :
    Carries g L (Start.relocate g) assignment assignment :=
  (carries_expectName hL).bind fun (p, x) => (carries_expect hL _).bind fun _ =>
    (carries_expr hL).bind fun e => carries_pure (Start.relocate g) (.whole (.assign p x e))

theorem carries_output (hL : ∀ p, L p (g p)) : Carries g L (Start.relocate g) output output :=
  (carries_expect hL _).bind fun p => (carries_expr hL).bind fun e =>
    carries_pure (Start.relocate g) (.whole (.print p e))

theorem carries_input (hL : ∀ p, L p (g p)) : Carries g L (Start.relocate g) input input :=
  (carries_expect hL _).bind fun _ => (carries_expectName hL).bind fun (p, x) =>
    carries_pure (Start.relocate g) (.whole (.read p x))

theorem carries_assertion (hL : ∀ p, L p (g p)) :
    Carries g L (Start.relocate g) assertion assertion :=
  (carries_expect hL _).bind fun p => (carries_expect hL _).bind fun _ =>
    (carries_expr hL).bind fun c => (carries_expect hL _).bind fun _ =>
      carries_pure (Start.relocate g) (.whole (.assert p c))

theorem carries_loopHead (hL : ∀ p, L p (g p)) :
    Carries g L (Start.relocate g) loopHead loopHead :=
  (carries_expect hL _).bind fun _ => (carries_expectName hL).bind fun (p, x) =>
    (carries_expect hL _).bind fun _ => (carries_expr hL).bind fun a =>
      (carries_expect hL _).bind fun _ => (carries_expr hL).bind fun b =>
        (carries_expect hL _).bind fun _ =>
          carries_pure (Start.relocate g) (.opening (.forLoop p x a b))

theorem carries_branchHead (hL : ∀ p, L p (g p)) :
    Carries g L (Start.relocate g) branchHead branchHead :=
  (carries_expect hL _).bind fun p => (carries_expr hL).bind fun c =>
    (carries_expect hL _).bind fun _ => carries_pure (Start.relocate g) (.opening (.ifThen p c))

theorem carries_start (hL : ∀ p, L p (g p)) : Carries g L (Start.relocate g) start start := by
  refine carries_peek.bind fun item => ?_
  rcases item with ⟨⟨l, p⟩⟩ | p
  · cases l with
    | keyword k =>
      cases k with
      | varK => exact carries_declaration hL
      | forK => exact carries_loopHead hL
      | ifK => exact carries_branchHead hL
      | printK => exact carries_output hL
      | readK => exact carries_input hL
      | assertK => exact carries_assertion hL
      | _ => exact carries_refuse _ _ p
    | name x => exact carries_assignment hL
    | _ => exact carries_refuse _ _ p
  · exact carries_refuse _ _ p

theorem carries_closing (hL : ∀ p, L p (g p)) (o : Opener) :
    Carries g L id (closing o) (closing (o.relocate g)) := by
  have hk : (o.relocate g).keyword = o.keyword := by cases o <;> rfl
  rw [closing, closing, hk]
  exact (carries_expect hL _).bind fun _ => (carries_expect hL _).bind fun _ => carries_pure id ()

theorem carries_atEnd (e : Expr Unit) :
    Carries g L (Expr.relocate g) (atEnd e) (atEnd (e.relocate g)) := by
  refine carries_peek.bind fun item => ?_
  rcases item with ⟨⟨l, p⟩⟩ | p
  · exact carries_refuse _ _ p
  · exact carries_pure _ e

theorem carries_loneExpr (hL : ∀ p, L p (g p)) :
    Carries g L (Expr.relocate g) loneExpr loneExpr := by
  rw [loneExpr_eq]
  refine (carries_expr hL).bind fun e => carries_peek.bind fun item => ?_
  rw [Item.kind_relocate]
  split
  · exact (carries_advance hL).bind fun _ => carries_atEnd e
  · exact carries_atEnd e

end Reading

/-! ## Steps -/

/-- What is left after skipping a statement is at other positions too. -/
inductive Reader.Resumption.Relocates (g : Pos → Pos) (L : Pos → Pos → Prop) :
    Resumption → Resumption → Prop
  | resumed {r r' : Reader} (h : r.Relocates g L r') : Relocates g L (.resumed r) (.resumed r')
  | ended {p : Pos} : Relocates g L (.ended p) (.ended (g p))
  | broken {rejection : Rejection} :
    Relocates g L (.broken rejection) (.broken (rejection.relocate g))

theorem Reader.Relocates.skipStatement (hL : ∀ p, L p (g p)) {r r' : Reader}
    (h : r.Relocates g L r') : Resumption.Relocates g L r.skipStatement r'.skipStatement := by
  obtain ⟨l, ts, e⟩ := r
  obtain ⟨l', ts', e'⟩ := r'
  obtain ⟨-, rfl, rfl⟩ := h
  have hdrop : (ts.map (·.relocate g)).dropWhile (·.lexeme != .symbol .semicolon) =
      (ts.dropWhile (·.lexeme != .symbol .semicolon)).map (·.relocate g) := by
    rw [List.dropWhile_map]
    rfl
  rw [Reader.skipStatement, Reader.skipStatement, hdrop]
  generalize ts.dropWhile (·.lexeme != .symbol .semicolon) = us
  rcases us with _ | ⟨t, _ | ⟨u, us⟩⟩
  · cases e with
    | eof p => exact .ended
    | fault f => exact .broken
  · cases e with
    | eof p => exact .resumed ⟨hL _, rfl, rfl⟩
    | fault f => exact .broken
  · cases e with
    | eof p => exact .resumed ⟨hL _, rfl, rfl⟩
    | fault f => exact .resumed ⟨hL _, rfl, rfl⟩

/-- A block that is open, at other positions. -/
def OpenBlock.relocate (g : Pos → Pos) (b : OpenBlock) : OpenBlock :=
  ⟨b.opener.relocate g, b.before.map (·.relocate g)⟩

theorem Opener.close_relocate (o : Opener) (b : Block Unit) :
    (o.relocate g).close (Block.relocate g b) = (o.close b).relocate g := by
  cases o <;> rfl

namespace ParseState

/-- The end at other positions. -/
def End.relocate (g : Pos → Pos) : End → End
  | complete program => complete (Block.relocate g program)
  | stopped => stopped
  | broken rejection => broken (rejection.relocate g)

/-- The state `p'` is that of `p` at other positions. -/
structure Relocates (g : Pos → Pos) (p p' : ParseState) : Prop where
  reader : p.reader.Relocates g (Pos.Moved g) p'.reader
  outer : p'.outer = p.outer.map (·.relocate g)
  done : p'.done = p.done.map (·.relocate g)

/-- The second step is the first one at other positions. -/
inductive Step.Relocates (g : Pos → Pos) : Step → Step → Prop
  | go {notes notes' : List Note} {next next' : ParseState}
    (hn : notes'.filterMap Note.fault? = (notes.filterMap Note.fault?).map (·.relocate g))
    (h : next.Relocates g next') : Relocates g (.go notes next) (.go notes' next')
  | halt {notes notes' : List Note} {ending : End}
    (hn : notes'.filterMap Note.fault? = (notes.filterMap Note.fault?).map (·.relocate g)) :
    Relocates g (.halt notes ending) (.halt notes' (ending.relocate g))

variable {r r' : Reader} {outer : List OpenBlock} {done : List (Stmt Unit)}

theorem relocates_recover (h : r.Relocates g (Pos.Moved g) r') (f : Located SyntaxFault) :
    Step.Relocates g (recover f r outer done)
      (recover (f.relocate g) r' (outer.map (·.relocate g)) (done.map (·.relocate g))) := by
  have hs := h.skipStatement Pos.moved
  unfold recover
  generalize r.skipStatement = o, r'.skipStatement = o' at hs
  cases hs with
  | resumed hr => exact .go rfl ⟨hr, rfl, rfl⟩
  | ended => exact .halt rfl
  | broken => exact .halt rfl

theorem relocates_finish (h : r.Relocates g (Pos.Moved g) r') (s : Stmt Unit) :
    Step.Relocates g (finish s r outer done)
      (finish (s.relocate g) r' (outer.map (·.relocate g)) (done.map (·.relocate g))) := by
  have hx := Reading.carries_expect Pos.moved (.symbol .semicolon) r r' h
  unfold finish
  generalize Reading.expect (.symbol .semicolon) r = o,
    Reading.expect (.symbol .semicolon) r' = o' at hx
  cases hx with
  | read hr => exact .go rfl ⟨hr, rfl, rfl⟩
  | refused hr =>
    rw [h.last]
    exact .go rfl ⟨h, rfl, rfl⟩
  | broken => exact .halt rfl

theorem relocates_attempt {α β : Type} {f : α → β} {x : Reading α} {x' : Reading β}
    {k : α → Reader → Step} {k' : β → Reader → Step}
    (hx : x.Carries g (Pos.Moved g) f x')
    (h : r.Relocates g (Pos.Moved g) r')
    (hk : ∀ a s s', s.Relocates g (Pos.Moved g) s' →
      Step.Relocates g (k a s) (k' (f a) s')) :
    Step.Relocates g (attempt x r outer done k)
      (attempt x' r' (outer.map (·.relocate g)) (done.map (·.relocate g)) k') := by
  have hxr := hx r r' h
  unfold attempt
  generalize x r = o, x' r' = o' at hxr
  cases hxr with
  | read hs => exact hk _ _ _ hs
  | refused hs => exact relocates_recover hs _
  | broken => exact .halt rfl

/-- The start of a statement is read alike. -/
theorem relocates_attempt_start (h : r.Relocates g (Pos.Moved g) r') :
    Step.Relocates g
      (attempt .start r outer done fun start r =>
        match start with
        | .whole s => finish s r outer done
        | .opening o => .go [] ⟨r, ⟨o, done⟩ :: outer, []⟩)
      (attempt .start r' (outer.map (·.relocate g)) (done.map (·.relocate g)) fun start r =>
        match start with
        | .whole s => finish s r (outer.map (·.relocate g)) (done.map (·.relocate g))
        | .opening o =>
          .go [] ⟨r, ⟨o, done.map (·.relocate g)⟩ :: outer.map (·.relocate g), []⟩) := by
  refine relocates_attempt (Reading.carries_start Pos.moved) h fun start s s' hs => ?_
  rcases start with d | o
  · exact relocates_finish hs d
  · exact .go rfl ⟨hs, rfl, rfl⟩

/-- A step is made alike at other positions. -/
theorem Relocates.step {p p' : ParseState} (h : p.Relocates g p') :
    Step.Relocates g p.step p'.step := by
  obtain ⟨⟨l, ts, e⟩, outer, done⟩ := p
  obtain ⟨r', outer', done'⟩ := p'
  obtain ⟨hr, rfl, rfl⟩ := h
  obtain ⟨l', ts', e'⟩ := r'
  obtain ⟨_, rfl, rfl⟩ := id hr
  have hdone : (done.map (·.relocate g)).reverse = Block.relocate g done.reverse := by
    rw [Block.relocate_eq_map, List.map_reverse]
  rcases ts with _ | ⟨⟨l, q⟩, ts⟩
  · cases e with
    | eof p =>
      rcases outer with _ | ⟨o, outer⟩
      · have h : Step.Relocates g (.halt [] (.complete done.reverse))
            (.halt [] (.complete (Block.relocate g done.reverse))) := .halt rfl
        rwa [← hdone] at h
      · exact .halt rfl
    | fault f => exact .halt rfl
  · cases l with
    | keyword k =>
      cases k with
      | endK =>
        rcases outer with _ | ⟨⟨o, before⟩, outer⟩
        · exact relocates_attempt_start hr
        · refine relocates_attempt (Reading.carries_closing Pos.moved o) hr fun _ s s' hs => ?_
          rw [hdone, Opener.close_relocate]
          exact relocates_finish hs _
      | elseK =>
        rcases outer with _ | ⟨⟨_ | ⟨q', c⟩ | _, before⟩, outer⟩
        case cons.ifThen =>
          refine relocates_attempt (Reading.carries_expect Pos.moved _) hr fun _ s s' hs => ?_
          rw [hdone]
          exact .go rfl ⟨hs, rfl, rfl⟩
        all_goals exact relocates_attempt_start hr
      | _ => exact relocates_attempt_start hr
    | _ => exact relocates_attempt_start hr

/-- Parsing ends alike at other positions, with the same faults there. -/
theorem Relocates.run {p p' : ParseState} (h : p.Relocates g p') :
    p'.faults = p.faults.map (·.relocate g) ∧ p'.run.2 = p.run.2.relocate g := by
  induction hn : p.reader.unread.length using Nat.strongRecOn generalizing p p' with
  | ind n ih =>
    subst hn
    have hstep := h.step
    generalize hp : p.step = s, hp' : p'.step = s' at hstep
    cases hstep with
    | go hnotes hnext =>
      obtain ⟨hfaults, hend⟩ := ih _ (length_lt_of_step hp) hnext rfl
      rw [(leads_of_go hp).faults, (leads_of_go hp').faults, (leads_of_go hp).ending,
        (leads_of_go hp').ending, hnotes, hfaults, List.map_append]
      exact ⟨rfl, hend⟩
    | halt hnotes =>
      rw [faults_of_halt hp, faults_of_halt hp', run_of_halt hp, run_of_halt hp']
      exact ⟨hnotes, rfl⟩

end ParseState

/-! ## Streams -/

/-- The failure at other positions. -/
def ParseFailure.relocate (g : Pos → Pos) : ParseFailure → ParseFailure
  | lexical rejection => lexical (rejection.relocate g)
  | syntactic faults => syntactic (faults.map (·.relocate g))

namespace Stream

/-- At other positions, the same program is accepted, or the same faults are found. -/
theorem result_relocate (g : Pos → Pos) (s : Stream) :
    (s.relocate g).parse.result =
      (s.parse.result.map (Block.relocate g)).mapError (ParseFailure.relocate g) := by
  obtain ⟨ts, p | f⟩ := s
  · have h : (ParseState.ofStream ⟨ts, .eof p⟩).Relocates g
        ⟨⟨g .start, ts.map (·.relocate g), .eof (g p)⟩, [], []⟩ := ⟨⟨rfl, rfl, rfl⟩, rfl, rfl⟩
    -- Where the last token stands before the start does not matter.
    have hlast : ParseState.run ⟨⟨g .start, ts.map (·.relocate g), .eof (g p)⟩, [], []⟩ =
        (ParseState.ofStream (relocate g ⟨ts, .eof p⟩)).run := ParseState.run_last ..
    obtain ⟨hfaults, hend⟩ := h.run
    rw [ParseState.faults, hlast] at hfaults
    rw [hlast] at hend
    rw [result_parse, result_parse, ParseState.faults, hfaults, hend]
    cases (ParseState.ofStream ⟨ts, .eof p⟩).run.2 <;>
      cases (ParseState.ofStream ⟨ts, .eof p⟩).faults <;> rfl
  · rw [result_of_fault]
    exact result_of_fault

/-- At other positions, the same expression is accepted, or the same faults are found. -/
theorem result_parseExpr_relocate (g : Pos → Pos) (s : Stream) :
    (s.relocate g).parseExpr.result =
      (s.parseExpr.result.map (Expr.relocate g)).mapError (ParseFailure.relocate g) := by
  have hr : (Reader.ofStream s).Relocates g (fun _ _ => True) (.ofStream (s.relocate g)) :=
    ⟨trivial, rfl, rfl⟩
  have hx := Reading.carries_loneExpr (fun _ => trivial) _ _ hr
  unfold parseExpr
  generalize Reading.loneExpr (.ofStream s) = o,
    Reading.loneExpr (.ofStream (s.relocate g)) = o' at hx
  cases hx with
  | read h => rfl
  | @refused f r r' h =>
    have hs := h.skipStatement fun _ => trivial
    obtain ⟨fault, p⟩ := f
    dsimp only [Located.relocate]
    by_cases hd : fault = .nestedTooDeeply
    · rw [if_pos hd, if_pos hd]
      rfl
    · rw [if_neg hd, if_neg hd]
      generalize r.skipStatement = o, r'.skipStatement = o' at hs
      cases hs <;> rfl
  | broken => rfl

end Stream

end MiniPL
