import MiniPL.Proofs.Grammar.Feed
import Mathlib.Logic.ExistsUnique

/-!
# Calls of the parser

The steps of `ParseState` keep the open blocks in a list. Here the parser is one whose rules call
each other (`Parser.Call`): the rule of statements calls that of statement lists for a block, and
this one calls the rule of statements again and again, until its list ends. A call for a statement
returns it, or aborts it at a fault and goes on after the next semicolon, or raises the faults if
there is none (`Parser.Exit`).

The rule of statement lists reads no token itself but the semicolon after a statement, which need
not be there. What makes it come to an end is that a call for a statement which does not raise
leaves fewer tokens unread than it found (`Parser.Progress`). So every call comes out
(`Parser.exists_call`), and in one way only (`Parser.Call.unique`). On its way it asks for what
comes next in the stream and for nothing after the end (`Parser.Call.onward`).

That the parser that calls is the one that steps is shown in `MiniPL.Proofs.Grammar.Progress`.
-/

namespace MiniPL

/-- Reads what a statement starts with. -/
def Feed.readStart (f : Feed) : Except (Located SyntaxFault) Start × Feed :=
  (Rules.start : Feeding Start) f

/-- Reads the end of the block after an opener. -/
def Feed.readClosing (o : Opener) (f : Feed) : Except (Located SyntaxFault) Unit × Feed :=
  (Rules.closing o : Feeding Unit) f

/-- Reads a lone expression. -/
def Feed.readLoneExpr (f : Feed) : Except (Located SyntaxFault) (Expr Unit) × Feed :=
  (Rules.loneExpr : Feeding (Expr Unit)) f

/-- Whether a block ends at the beginning of an alternative, too. -/
def Opener.takesElse : Opener → Bool
  | ifThen .. => true
  | forLoop .. => false
  | ifElse .. => false

/-- A parser: what feeds it, and the faults it has recorded. -/
structure Parser where
  feed : Feed
  faults : List (Located SyntaxFault)

namespace Parser

/-- The start of a program. -/
def start (ts : List Token) (p : Pos) : Parser := ⟨.start ts p, []⟩

/-- Asks for the next item. -/
def pull (q : Parser) : Parser := ⟨q.feed.pull, q.faults⟩

/-- Records a fault. -/
def record (q : Parser) (f : Located SyntaxFault) : Parser := ⟨q.feed, q.faults ++ [f]⟩

/-- How a call of a rule comes out. -/
inductive Exit (α : Type)
  /-- With a result. -/
  | returned (a : α)
  /-- With a fault, after which parsing goes on. -/
  | aborted
  /-- With a fault that is the last one. -/
  | raised

/-- A call comes out with another result. -/
def Exit.map {α β : Type} (k : α → β) : Exit α → Exit β
  | returned a => returned (k a)
  | aborted => aborted
  | raised => raised

/-- Drops all tokens up to and including the next semicolon. If there is none, that is the last
    fault. -/
def synchronize (q : Parser) : Exit (Stmt Unit) × Parser :=
  match _ : q.feed.current with
  | .eof p => (.raised, q.record ⟨.missingSemicolon, p⟩)
  | .token t =>
    if t.lexeme = .symbol .semicolon then (.aborted, q.pull) else q.pull.synchronize
termination_by q.feed.unread.length
decreasing_by
  obtain ⟨rest, hr⟩ := Item.exists_cons_of_first ‹_›
  simp [pull, Feed.pull, hr]

/-- Records a fault and goes on after the next semicolon. -/
def fail (q : Parser) (f : Located SyntaxFault) : Exit (Stmt Unit) × Parser :=
  (q.record f).synchronize

/-- Goes on after a statement. If there is no semicolon, that is recorded, and parsing goes on at
    the same item. -/
def checkSemicolon (q : Parser) : Parser :=
  if q.feed.current.kind = .symbol .semicolon then q.pull
  else q.record ⟨.missingSemicolon, q.feed.last⟩

/-- Reads the end of the block after an opener, which makes a statement of it. -/
def close (o : Opener) (body : Block Unit) (q : Parser) : Exit (Stmt Unit) × Parser :=
  match q.feed.readClosing o with
  | (.ok (), g) => (.returned (o.close body), ⟨g, q.faults⟩)
  | (.error f, g) => fail ⟨g, q.faults⟩ f

/-- A list of statements ends before the item: in the block after an opener, or outside all
    blocks. -/
def Ends (inside : Option Opener) (item : Item) : Prop :=
  match inside with
  | none => item.kind = .eof
  | some o => item.kind = .keyword .endK ∨ (o.takesElse ∧ item.kind = .keyword .elseK)

/-- Reads a lone expression. The first fault is the end of it; if parentheses are nested too
    deeply, no tokens are dropped. -/
def loneExpr (q : Parser) : Exit (Expr Unit) × Parser :=
  match q.feed.readLoneExpr with
  | (.ok e, g) => (.returned e, ⟨g, q.faults⟩)
  | (.error f, g) =>
    if f.thing = .nestedTooDeeply then (.raised, record ⟨g, q.faults⟩ f)
    else (.raised, (fail ⟨g, q.faults⟩ f).2)

/-- The rules that call each other. -/
inductive Rule
  /-- The rule of statements. -/
  | statement
  /-- What is left of that after an opener. -/
  | inside (o : Opener)
  /-- The rule of statement lists, in the block after an opener or outside all blocks. -/
  | statements (inside : Option Opener)

/-- What a rule reads. -/
abbrev Rule.Result : Rule → Type
  | statement => Stmt Unit
  | inside _ => Stmt Unit
  | statements _ => Block Unit

/-- A call of a rule, from the parser as it finds it to the parser as it leaves it. Only calls
    that come to an end come out. -/
inductive Call : (c : Rule) → Parser → Exit c.Result → Parser → Prop
  /-- A statement has no block in it. -/
  | whole {q : Parser} {g : Feed} {s : Stmt Unit} (h : q.feed.readStart = (.ok (.whole s), g)) :
    Call .statement q (.returned s) ⟨g, q.faults⟩
  /-- A statement goes on with a block. -/
  | opening {q r : Parser} {g : Feed} {o : Opener} {e : Exit (Stmt Unit)}
    (h : q.feed.readStart = (.ok (.opening o), g)) (hi : Call (.inside o) ⟨g, q.faults⟩ e r) :
    Call .statement q e r
  /-- There is a fault in a statement, before any block. That parentheses are nested too deeply is
      a fault like any other here. -/
  | refused {q r : Parser} {g : Feed} {f : Located SyntaxFault} {e : Exit (Stmt Unit)}
    (h : q.feed.readStart = (.error f, g)) (hf : fail ⟨g, q.faults⟩ f = (e, r)) :
    Call .statement q e r
  /-- A block has an alternative after it. -/
  | alternative {q r r' : Parser} {p : Pos} {c : Expr Unit} {body : Block Unit}
    {e : Exit (Stmt Unit)} (hb : Call (.statements (some (.ifThen p c))) q (.returned body) r)
    (he : r.feed.current.kind = .keyword .elseK)
    (hi : Call (.inside (.ifElse p c body)) r.pull e r') : Call (.inside (.ifThen p c)) q e r'
  /-- A block is closed, or there is a fault where it should be. -/
  | closed {o : Opener} {q r r' : Parser} {body : Block Unit} {e : Exit (Stmt Unit)}
    (hb : Call (.statements (some o)) q (.returned body) r)
    (he : o.takesElse → r.feed.current.kind ≠ .keyword .elseK) (hc : r.close o body = (e, r')) :
    Call (.inside o) q e r'
  /-- A block ends the program. -/
  | blockRaised {o : Opener} {q r : Parser} (hb : Call (.statements (some o)) q .raised r) :
    Call (.inside o) q .raised r
  /-- A list ends. -/
  | ended {inside : Option Opener} {q : Parser} (h : Ends inside q.feed.current) :
    Call (.statements inside) q (.returned []) q
  /-- The program ends inside a block. -/
  | cut {o : Opener} {q : Parser} {p : Pos} (h : q.feed.current = .eof p) :
    Call (.statements (some o)) q .raised (q.record ⟨.unclosedBlock, p⟩)
  /-- A statement is read. -/
  | returned {inside : Option Opener} {q r r' : Parser} {t : Token} {s : Stmt Unit}
    {e : Exit (Block Unit)} (ht : q.feed.current = .token t) (he : ¬ Ends inside (.token t))
    (h : Call .statement q (.returned s) r) (hs : Call (.statements inside) r.checkSemicolon e r') :
    Call (.statements inside) q (e.map (s :: ·)) r'
  /-- A statement is dropped. -/
  | aborted {inside : Option Opener} {q r r' : Parser} {t : Token} {e : Exit (Block Unit)}
    (ht : q.feed.current = .token t) (he : ¬ Ends inside (.token t))
    (h : Call .statement q .aborted r) (hs : Call (.statements inside) r e r') :
    Call (.statements inside) q e r'
  /-- A statement ends the program. -/
  | raised {inside : Option Opener} {q r : Parser} {t : Token}
    (ht : q.feed.current = .token t) (he : ¬ Ends inside (.token t))
    (h : Call .statement q .raised r) : Call (.statements inside) q .raised r

/-! ## Skipping -/

/-- What `synchronize` does: it takes all tokens up to and including the next semicolon, or finds
    the end of the program. -/
inductive Synchronized (q : Parser) : Exit (Stmt Unit) × Parser → Prop
  | aborted {skipped : List Token} {t : Token} {g : Feed}
    (hq : q.feed.unread = skipped ++ t :: g.unread)
    (hs : ∀ u ∈ skipped, u.lexeme ≠ .symbol .semicolon) (ht : t.lexeme = .symbol .semicolon)
    (hlast : g.last = t.pos) (ho : q.feed.Onward g) : Synchronized q (.aborted, ⟨g, q.faults⟩)
  | raised {g : Feed} (hq : ∀ u ∈ q.feed.unread, u.lexeme ≠ .symbol .semicolon)
    (hg : g.unread = []) (ho : q.feed.Onward g) :
    Synchronized q (.raised, ⟨g, q.faults ++ [⟨.missingSemicolon, q.feed.eofPos⟩]⟩)

theorem synchronized (q : Parser) : q.Synchronized q.synchronize := by
  fun_induction synchronize q with
  | case1 q p h =>
    obtain ⟨⟨last, _ | ⟨t, rest⟩, _, _⟩, faults⟩ := q
    · cases h
      exact .raised nofun rfl (.refl _)
    · cases h
  | case2 q t h ht =>
    obtain ⟨rest, hr⟩ := Item.exists_cons_of_first h
    refine @Synchronized.aborted _ [] _ _ ?_ nofun ht ?_ (Feed.onward_pull hr)
    · rw [List.nil_append, Feed.pull, hr, List.tail_cons]
    · rw [Feed.pull, h, Item.pos]
  | case3 q t h ht ih =>
    obtain ⟨rest, hr⟩ := Item.exists_cons_of_first h
    have hpull : q.feed.unread = t :: q.pull.feed.unread := by rw [hr, pull, Feed.pull, hr]; rfl
    have ho := Feed.onward_pull hr
    generalize q.pull.synchronize = er at ih ⊢
    cases ih with
    | @aborted skipped _ _ hq hs hu hlast hg =>
      refine @Synchronized.aborted _ (t :: skipped) _ _ ?_ ?_ hu hlast (ho.trans hg)
      · rw [hpull, hq, List.cons_append]
      · exact List.forall_mem_cons.2 ⟨ht, hs⟩
    | raised hq hg' hg =>
      refine .raised ?_ hg' (ho.trans hg)
      rw [hpull]
      exact List.forall_mem_cons.2 ⟨ht, hq⟩

/-! ## Progress -/

/-- A call for a statement has read on from `q` to `r`: past a token at least, unless it has ended
    the program, and then up to its end. -/
structure Progress (q : Parser) (e : Exit (Stmt Unit)) (r : Parser) : Prop where
  onward : q.feed.Onward r.feed
  lt : e ≠ .raised → r.feed.unread.length < q.feed.unread.length
  ended : e = .raised → r.feed.unread = []

/-- A call for the statements of a list has read on from `q` to `r`: to the end of the list, or to
    the end of the program. -/
structure Passage (inside : Option Opener) (q : Parser) (e : Exit (Block Unit)) (r : Parser) :
    Prop where
  onward : q.feed.Onward r.feed
  ne_aborted : e ≠ .aborted
  ends : e ≠ .raised → Ends inside r.feed.current
  ended : e = .raised → r.feed.unread = []

/-- How far a call of a rule reads. -/
def Rule.Advances : (c : Rule) → Parser → Exit c.Result → Parser → Prop
  | statement => Progress
  | inside _ => Progress
  | statements i => Passage i

variable {o : Opener} {c : Rule} {q r r' : Parser} {f : Located SyntaxFault}

/-- Reading on before a call makes no difference. -/
theorem Progress.after {e : Exit (Stmt Unit)} (h : Progress r e r') (ho : q.feed.Onward r.feed) :
    Progress q e r' where
  onward := ho.trans h.onward
  lt he := Nat.lt_of_lt_of_le (h.lt he) ho.suffix.length_le
  ended := h.ended

theorem Progress.of_lt {s : Stmt Unit} (ho : q.feed.Onward r.feed)
    (hlt : r.feed.unread.length < q.feed.unread.length) : Progress q (.returned s) r :=
  ⟨ho, fun _ => hlt, nofun⟩

/-- A failure reads past a semicolon, or to the end of the program. -/
theorem progress_fail {e : Exit (Stmt Unit)} (hf : q.fail f = (e, r)) : Progress q e r := by
  have hs := (q.record f).synchronized
  rw [← fail, hf] at hs
  cases hs with
  | aborted hq _ _ _ ho =>
    refine ⟨ho, fun _ => ?_, nofun⟩
    have hq := congrArg List.length hq
    rw [List.length_append, List.length_cons] at hq
    simp only [record] at hq ⊢
    omega
  | raised _ hg ho => exact ⟨ho, fun h => absurd rfl h, fun _ => hg⟩

/-- What starts a statement is read past one token at least. -/
theorem onward_start {a : Start} {g : Feed} (h : q.feed.readStart = (.ok a, g)) :
    q.feed.Onward g ∧ g.unread.length < q.feed.unread.length := by
  obtain ⟨hr, ho⟩ := Feeding.follows_start.read h
  exact ⟨ho, Reading.consumes_start.lt hr⟩

/-- Closing a block reads past one token at least, or fails. -/
theorem progress_close {body : Block Unit} {e : Exit (Stmt Unit)} (h : q.close o body = (e, r)) :
    Progress q e r := by
  rcases hq : q.feed.readClosing o with ⟨f | ⟨⟩, g⟩
  · rw [close, hq] at h
    exact (progress_fail h).after ((Feeding.follows_closing o).refused hq).2
  · obtain ⟨hr, ho⟩ := (Feeding.follows_closing o).read hq
    rw [close, hq] at h
    cases h
    exact .of_lt ho ((Reading.consumes_closing o).lt hr)

/-- A keyword may be read. -/
theorem onward_pull {k : Keyword} (h : q.feed.current.kind = .keyword k) :
    q.feed.Onward q.pull.feed ∧ q.pull.feed.unread.length < q.feed.unread.length := by
  obtain ⟨⟨last, _ | ⟨t, rest⟩, p, pulled⟩, faults⟩ := q
  · cases h
  · exact ⟨Feed.onward_pull rfl, Nat.lt_succ_self _⟩

/-- Nothing but a semicolon is read after a statement. -/
theorem onward_checkSemicolon (q : Parser) : q.feed.Onward q.checkSemicolon.feed := by
  unfold checkSemicolon
  split
  · next h =>
    obtain ⟨p, rest, hr⟩ := Item.exists_semicolon h
    exact Feed.onward_pull hr
  · exact .refl _

/-- At the end of the program, no tokens are unread. -/
theorem unread_eq_nil {p : Pos} (h : q.feed.current = .eof p) : q.feed.unread = [] := by
  obtain ⟨⟨last, _ | ⟨t, rest⟩, _, _⟩, _⟩ := q
  · rfl
  · cases h

/-- Every call reads as far as its rule does. A statement is not left before a token of it has been
    read, be it its first one, the end of its block, or the semicolon after a fault. -/
theorem Call.advances {e : Exit c.Result} (h : Call c q e r) : c.Advances q e r := by
  induction h with
  | whole h => exact Progress.of_lt (onward_start h).1 (onward_start h).2
  | opening h _ ih => exact Progress.after ih (onward_start h).1
  | refused h hf => exact (progress_fail hf).after (Feeding.follows_start.refused h).2
  | alternative _ he _ ihb ihi =>
    exact Progress.after ihi ((Passage.onward ihb).trans (onward_pull he).1)
  | closed _ _ hc ih => exact (progress_close hc).after (Passage.onward ih)
  | blockRaised _ ih =>
    exact ⟨Passage.onward ih, fun h => absurd rfl h, fun _ => Passage.ended ih rfl⟩
  | ended h => exact ⟨.refl _, nofun, fun _ => h, nofun⟩
  | cut h => exact ⟨.refl _, nofun, fun h => absurd rfl h, fun _ => unread_eq_nil h⟩
  | @returned _ _ _ _ _ _ e _ _ _ _ ih ihs =>
    have ho := ((Progress.onward ih).trans (onward_checkSemicolon _)).trans (Passage.onward ihs)
    cases e with
    | returned b => exact ⟨ho, nofun, fun _ => Passage.ends ihs nofun, nofun⟩
    | aborted => exact absurd rfl (Passage.ne_aborted ihs)
    | raised => exact ⟨ho, nofun, fun h => absurd rfl h, fun _ => Passage.ended ihs rfl⟩
  | aborted _ _ _ _ ih ihs =>
    obtain ⟨ho, hne, hends, hended⟩ := ihs
    exact ⟨(Progress.onward ih).trans ho, hne, hends, hended⟩
  | raised _ _ _ ih =>
    exact ⟨Progress.onward ih, nofun, fun h => absurd rfl h, fun _ => Progress.ended ih rfl⟩

/-- A call asks for what comes next in the stream, and for nothing after its end. -/
theorem Call.onward {e : Exit c.Result} (h : Call c q e r) : q.feed.Onward r.feed := by
  cases c with
  | statement => exact Progress.onward h.advances
  | inside o => exact Progress.onward h.advances
  | statements i => exact Passage.onward h.advances

/-- The statements of a list are returned where the list ends. -/
theorem Call.ends {inside : Option Opener} {body : Block Unit}
    (h : Call (.statements inside) q (.returned body) r) : Ends inside r.feed.current :=
  Passage.ends h.advances nofun

theorem onward_loneExpr (q : Parser) : q.feed.Onward q.loneExpr.2.feed := by
  rcases hq : q.feed.readLoneExpr with ⟨f | e, g⟩
  · have ho := (Feeding.follows_loneExpr.refused hq).2
    rw [loneExpr, hq]
    dsimp only
    split
    · exact ho
    · exact ho.trans (progress_fail (r := (fail ⟨g, q.faults⟩ f).2) rfl).onward
  · rw [loneExpr, hq]
    exact (Feeding.follows_loneExpr.read hq).2

/-! ## Termination

A call for a statement calls other rules only after it has read a token. A call for a list calls for
a statement from the same place first, and what is left of a statement after an opener calls for a
list from the same place. So all calls come out, by induction on the number of unread tokens. -/

section

variable (ih : ∀ q' : Parser, q'.feed.unread.length < q.feed.unread.length →
  ∀ c : Rule, ∃ e r, Call c q' e r)

include ih

theorem exists_statement : ∃ e r, Call .statement q e r := by
  rcases hq : q.feed.readStart with ⟨_ | _ | o, g⟩
  · exact ⟨_, _, .refused hq rfl⟩
  · exact ⟨_, _, .whole hq⟩
  · obtain ⟨e, r, h⟩ := ih ⟨g, q.faults⟩ (onward_start hq).2 (.inside o)
    exact ⟨e, r, .opening hq h⟩

theorem exists_statements (inside : Option Opener) : ∃ e r, Call (.statements inside) q e r := by
  by_cases he : Ends inside q.feed.current
  · exact ⟨_, _, .ended he⟩
  cases hq : q.feed.current with
  | eof p =>
    cases inside with
    | none => exact absurd (congrArg Item.kind hq) he
    | some o => exact ⟨_, _, .cut hq⟩
  | token t =>
    rw [hq] at he
    obtain ⟨e, r, h⟩ := exists_statement ih
    have hp : Progress q e r := h.advances
    cases e with
    | returned s =>
      have hlt := Nat.lt_of_le_of_lt (onward_checkSemicolon r).suffix.length_le (hp.lt nofun)
      obtain ⟨e, r', hs⟩ := ih r.checkSemicolon hlt (.statements inside)
      exact ⟨_, r', .returned hq he h hs⟩
    | aborted =>
      obtain ⟨e, r', hs⟩ := ih r (hp.lt nofun) (.statements inside)
      exact ⟨e, r', .aborted hq he h hs⟩
    | raised => exact ⟨_, r, .raised hq he h⟩

theorem exists_inside (o : Opener) : ∃ e r, Call (.inside o) q e r := by
  obtain ⟨e, r, hb⟩ := exists_statements ih (some o)
  have hp : Passage (some o) q e r := hb.advances
  cases e with
  | raised => exact ⟨_, r, .blockRaised hb⟩
  | aborted => exact absurd rfl hp.ne_aborted
  | returned body =>
    by_cases he : o.takesElse ∧ r.feed.current.kind = .keyword .elseK
    · obtain ⟨ho, he⟩ := he
      cases o with
      | ifThen p c =>
        have hlt := Nat.lt_of_lt_of_le (onward_pull he).2 hp.onward.suffix.length_le
        obtain ⟨e, r', hi⟩ := ih r.pull hlt (.inside (.ifElse p c body))
        exact ⟨e, r', .alternative hb he hi⟩
      | _ => cases ho
    · exact ⟨_, _, .closed hb (not_and.1 he) rfl⟩

end

/-- Every call comes to an end. -/
theorem exists_call (q : Parser) (c : Rule) : ∃ e r, Call c q e r := by
  induction hn : q.feed.unread.length using Nat.strongRecOn generalizing q c with
  | ind n ih =>
    subst hn
    have ih : ∀ q' : Parser, q'.feed.unread.length < q.feed.unread.length →
        ∀ c : Rule, ∃ e r, Call c q' e r := fun q' hlt c => ih _ hlt q' c rfl
    cases c with
    | statement => exact exists_statement ih
    | inside o => exact exists_inside ih o
    | statements inside => exact exists_statements ih inside

/-- Inside a block, the end of the program is not the end of the block. -/
theorem not_ends_eof {p : Pos} (h : q.feed.current = .eof p) :
    ¬ Ends (some o) q.feed.current := by
  rw [h]
  rintro (h | ⟨-, h⟩) <;> cases h

/-- A call comes out in one way only: where it stands decides which case it is, and its own calls
    come out in one way only. -/
theorem Call.unique {e e' : Exit c.Result} (h : Call c q e r) (h' : Call c q e' r') :
    e = e' ∧ r = r' := by
  induction h generalizing r' with
  | whole h =>
    cases h' with
    | whole h' =>
      cases h.symm.trans h'
      exact ⟨rfl, rfl⟩
    | opening h' => cases h.symm.trans h'
    | refused h' => cases h.symm.trans h'
  | opening h _ ih =>
    cases h' with
    | whole h' => cases h.symm.trans h'
    | opening h' hi' =>
      cases h.symm.trans h'
      exact ih hi'
    | refused h' => cases h.symm.trans h'
  | refused h hf =>
    cases h' with
    | whole h' => cases h.symm.trans h'
    | opening h' => cases h.symm.trans h'
    | refused h' hf' =>
      cases h.symm.trans h'
      exact Prod.mk.inj (hf.symm.trans hf')
  | alternative _ he _ ihb ihi =>
    cases h' with
    | alternative hb' _ hi' =>
      obtain ⟨⟨⟩, rfl⟩ := ihb hb'
      exact ihi hi'
    | closed hb' he' =>
      obtain ⟨-, rfl⟩ := ihb hb'
      exact absurd he (he' rfl)
    | blockRaised hb' => cases (ihb hb').1
  | closed _ he hc ih =>
    cases h' with
    | alternative hb' he' =>
      obtain ⟨-, rfl⟩ := ih hb'
      exact absurd he' (he rfl)
    | closed hb' _ hc' =>
      obtain ⟨⟨⟩, rfl⟩ := ih hb'
      exact Prod.mk.inj (hc.symm.trans hc')
    | blockRaised hb' => cases (ih hb').1
  | blockRaised _ ih =>
    cases h' with
    | alternative hb' => cases (ih hb').1
    | closed hb' => cases (ih hb').1
    | blockRaised hb' => exact ⟨rfl, (ih hb').2⟩
  | ended h =>
    cases h' with
    | ended => exact ⟨rfl, rfl⟩
    | cut h' => exact absurd h (not_ends_eof h')
    | returned ht' he' => exact absurd (ht' ▸ h) he'
    | aborted ht' he' => exact absurd (ht' ▸ h) he'
    | raised ht' he' => exact absurd (ht' ▸ h) he'
  | cut h =>
    cases h' with
    | ended h' => exact absurd h' (not_ends_eof h)
    | cut h' =>
      cases h.symm.trans h'
      exact ⟨rfl, rfl⟩
    | returned ht' => cases h.symm.trans ht'
    | aborted ht' => cases h.symm.trans ht'
    | raised ht' => cases h.symm.trans ht'
  | returned ht he _ _ ih ihs =>
    cases h' with
    | ended h' => exact absurd (ht ▸ h') he
    | cut h' => cases ht.symm.trans h'
    | returned _ _ h' hs' =>
      obtain ⟨⟨⟩, rfl⟩ := ih h'
      obtain ⟨rfl, rfl⟩ := ihs hs'
      exact ⟨rfl, rfl⟩
    | aborted _ _ h' => cases (ih h').1
    | raised _ _ h' => cases (ih h').1
  | aborted ht he _ _ ih ihs =>
    cases h' with
    | ended h' => exact absurd (ht ▸ h') he
    | cut h' => cases ht.symm.trans h'
    | returned _ _ h' => cases (ih h').1
    | aborted _ _ h' hs' =>
      obtain ⟨-, rfl⟩ := ih h'
      exact ihs hs'
    | raised _ _ h' => cases (ih h').1
  | raised ht he _ ih =>
    cases h' with
    | ended h' => exact absurd (ht ▸ h') he
    | cut h' => cases ht.symm.trans h'
    | returned _ _ h' => cases (ih h').1
    | aborted _ _ h' => cases (ih h').1
    | raised _ _ h' => exact ⟨rfl, (ih h').2⟩

/-- Every call comes out, and in one way. -/
theorem existsUnique_call (q : Parser) (c : Rule) :
    ∃! er : Exit c.Result × Parser, Call c q er.1 er.2 := by
  obtain ⟨e, r, h⟩ := exists_call q c
  refine ⟨(e, r), h, ?_⟩
  rintro ⟨e', r'⟩ h'
  obtain ⟨rfl, rfl⟩ := h.unique h'
  rfl

end Parser

end MiniPL
