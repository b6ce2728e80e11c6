import MiniPL.Proofs.Grammar.Calls
import MiniPL.Proofs.Grammar.Faults
import Mathlib.Data.List.TakeWhile

/-!
# Progress of the parser

The parser that calls (`MiniPL.Proofs.Grammar.Calls`) is the one that steps. At each of its calls
the steps are at the same place, with the same blocks open, and they come to the same from there
and from where the call leaves the parser (`Parser.Rule.Agrees`): to the same faults in the end,
with those recorded so far, and to the same program. So it parses as `Stream.parse` does
(`Parser.result_parse`), and what holds of its calls is how a program is parsed
(`Parser.every_call_ends`).
-/

namespace MiniPL

namespace Parser

open ParseState (Leads leads_of_go finish_semicolon finish_missing faults_of_halt run_of_halt)

/-- The opener of the innermost open block, if there is one. -/
def innermost (outer : List OpenBlock) : Option Opener := outer.head?.map OpenBlock.opener

/-- The place where a parser is, with the given open blocks. -/
def state (q : Parser) (outer : List OpenBlock) (done : List (Stmt Unit)) : ParseState :=
  ⟨q.feed.reader, outer, done⟩

/-- What the steps from there come to: the faults, with those recorded before, and the end. -/
def outlook (q : Parser) (outer : List OpenBlock) (done : List (Stmt Unit)) :
    List (Located SyntaxFault) × ParseState.End :=
  (q.faults ++ (q.state outer done).faults, (q.state outer done).run.2)

/-- What the steps come to after a call for a statement in the given block. -/
def outlookAfter (outer : List OpenBlock) (done : List (Stmt Unit)) :
    Exit (Stmt Unit) → Parser → List (Located SyntaxFault) × ParseState.End
  | .returned s, r => r.checkSemicolon.outlook outer (s :: done)
  | .aborted, r => r.outlook outer done
  | .raised, r => (r.faults, .stopped)

/-- The steps come to the same before a call of a rule and after it. -/
def Rule.Agrees : (c : Rule) → Parser → Exit c.Result → Parser → Prop
  | statement, q, e, r => ∀ (outer : List OpenBlock) (done : List (Stmt Unit)) (t : Token),
      q.feed.current = .token t → ¬ Ends (innermost outer) (.token t) →
        q.outlook outer done = outlookAfter outer done e r
  | inside o, q, e, r => ∀ (outer : List OpenBlock) (done : List (Stmt Unit)),
      q.outlook (⟨o, done⟩ :: outer) [] = outlookAfter outer done e r
  | statements i, q, e, r => ∀ (outer : List OpenBlock) (done : List (Stmt Unit)),
      innermost outer = i → q.outlook outer done =
        match e with
        | .returned b => r.outlook outer (b.reverse ++ done)
        | _ => (r.faults, .stopped)

variable {q r : Parser} {g : Feed} {outer outer' : List OpenBlock} {done done' : List (Stmt Unit)}
  {f : Located SyntaxFault} {s : Stmt Unit}

/-- The steps come to the same where they lead, if the faults on the way are recorded. -/
theorem outlook_of_leads {fs : List (Located SyntaxFault)} {p : ParseState}
    (h : Leads fs (q.state outer done) p) (hp : p = r.state outer' done')
    (hr : r.faults = q.faults ++ fs) : q.outlook outer done = r.outlook outer' done' := by
  subst hp
  rw [outlook, outlook, h.faults, h.ending, hr, List.append_assoc]

/-- They come to the same where one step goes on without a fault. -/
theorem outlook_of_go
    (h : (q.state outer done).step = .go [] ⟨g.reader, outer', done'⟩) :
    q.outlook outer done = outlook ⟨g, q.faults⟩ outer' done' :=
  outlook_of_leads (leads_of_go h) rfl (List.append_nil _).symm

/-- A step that finishes a statement reads the semicolon after it, or records that it is missing. -/
theorem outlook_of_finish
    (h : (q.state outer done).step = ParseState.finish s g.reader outer' done') :
    q.outlook outer done = outlookAfter outer' done' (.returned s) ⟨g, q.faults⟩ := by
  by_cases hs : g.current.kind = .symbol .semicolon
  · have hc : checkSemicolon ⟨g, q.faults⟩ = pull ⟨g, q.faults⟩ := if_pos hs
    rw [outlookAfter, hc]
    obtain ⟨last, unread, p, pulled⟩ := g
    obtain ⟨l, rest, rfl⟩ := Item.exists_semicolon hs
    obtain ⟨notes, hgo, hnotes⟩ := finish_semicolon
    exact outlook_of_leads (hnotes ▸ leads_of_go (h.trans hgo)) rfl (List.append_nil _).symm
  · have hc : checkSemicolon ⟨g, q.faults⟩ = record ⟨g, q.faults⟩ ⟨.missingSemicolon, g.last⟩ :=
      if_neg hs
    rw [outlookAfter, hc]
    obtain ⟨notes, hgo, hnotes⟩ := finish_missing hs
    exact outlook_of_leads (hnotes ▸ leads_of_go (h.trans hgo)) rfl rfl

/-- After a fault, the parser that calls skips what the one that steps skips. -/
theorem skipStatement_of_fail {e : Exit (Stmt Unit)} (hf : fail ⟨g, q.faults⟩ f = (e, r)) :
    (e = .aborted ∧ r.faults = q.faults ++ [f] ∧
      g.reader.skipStatement = .resumed r.feed.reader) ∨
    (e = .raised ∧ r.faults = q.faults ++ [f, ⟨.missingSemicolon, g.eofPos⟩] ∧
      g.reader.skipStatement = .ended g.eofPos) := by
  have hs := (record ⟨g, q.faults⟩ f).synchronized
  rw [← fail, hf] at hs
  cases hs with
  | @aborted skipped t g' hq hs ht hlast ho =>
    refine .inl ⟨rfl, rfl, ?_⟩
    have hd : g.reader.unread.dropWhile (·.lexeme != .symbol .semicolon) = t :: g'.unread := by
      change g.reader.unread = _ at hq
      rw [hq, List.dropWhile_append_of_pos (by simpa using hs)]
      simp [ht]
    rw [Reader.skipStatement, hd, Feed.reader, Feed.reader, hlast, ho.eofPos]
    cases g'.unread <;> rfl
  | raised hq hg ho =>
    refine .inr ⟨rfl, List.append_assoc .., ?_⟩
    have hd : g.reader.unread.dropWhile (·.lexeme != .symbol .semicolon) = [] := by
      rw [List.dropWhile_eq_nil_iff]
      simpa [record, Feed.reader] using hq
    rw [Reader.skipStatement, hd]
    rfl

/-- A step that recovers from a fault goes on where the call that found it is aborted. -/
theorem outlook_of_recover {e : Exit (Stmt Unit)} (hf : fail ⟨g, q.faults⟩ f = (e, r))
    (h : (q.state outer done).step = ParseState.recover f g.reader outer' done') :
    q.outlook outer done = outlookAfter outer' done' e r := by
  obtain ⟨rfl, hr, hskip⟩ | ⟨rfl, hr, hskip⟩ := skipStatement_of_fail hf
  · rw [ParseState.recover, hskip] at h
    exact outlook_of_leads (leads_of_go h) rfl hr
  · rw [ParseState.recover, hskip] at h
    rw [outlook, outlookAfter, faults_of_halt h, run_of_halt h, hr]
    rfl

/-! ## Steps -/

/-- Where no list of statements ends, a step starts a statement. -/
theorem step_start {t : Token} (ht : q.feed.current = .token t)
    (he : ¬ Ends (innermost outer) (.token t)) :
    (q.state outer done).step =
      ParseState.attempt .start q.feed.reader outer done fun start r =>
        match start with
        | .whole s => ParseState.finish s r outer done
        | .opening o => .go [] ⟨r, ⟨o, done⟩ :: outer, []⟩ := by
  obtain ⟨⟨last, unread, p, pulled⟩, faults⟩ := q
  obtain ⟨rest, rfl⟩ := Item.exists_cons_of_first ht
  obtain ⟨l, q⟩ := t
  cases l with
  | keyword k =>
    cases k with
    | endK =>
      cases outer with
      | nil => rfl
      | cons o outer => exact absurd (.inl rfl) he
    | elseK =>
      rcases outer with _ | ⟨⟨_ | _ | _, before⟩, outer⟩
      case cons.ifThen => exact absurd (.inr ⟨rfl, rfl⟩) he
      all_goals rfl
    | _ => rfl
  | _ => rfl

/-- At the end of a block, a step reads that. -/
theorem step_closing {o : Opener} {body : List (Stmt Unit)}
    (he : q.feed.current.kind = .keyword .endK) :
    (q.state (⟨o, done⟩ :: outer) body).step =
      ParseState.attempt (.closing o) q.feed.reader outer done fun _ r =>
        ParseState.finish (o.close body.reverse) r outer done := by
  obtain ⟨⟨last, _ | ⟨⟨l, p⟩, rest⟩, p', pulled⟩, faults⟩ := q
  · cases he
  · cases l <;> cases he
    rfl

/-- So does the call that closes the block. -/
theorem outlook_of_close {o : Opener} {body : Block Unit} {e : Exit (Stmt Unit)}
    (he : q.feed.current.kind = .keyword .endK) (hc : q.close o body = (e, r)) :
    q.outlook (⟨o, done⟩ :: outer) body.reverse = outlookAfter outer done e r := by
  rcases hq : q.feed.readClosing o with ⟨f | ⟨⟩, g⟩
  · have hr := ((Feeding.follows_closing o).refused hq).1
    rw [close, hq] at hc
    refine outlook_of_recover hc ?_
    rw [step_closing he, ParseState.attempt, hr]
  · have hr := ((Feeding.follows_closing o).read hq).1
    rw [close, hq] at hc
    cases hc
    refine outlook_of_finish ?_
    rw [step_closing he, ParseState.attempt, hr, List.reverse_reverse]

/-- At the beginning of an alternative, a step goes on with that. -/
theorem step_alternative {p : Pos} {c : Expr Unit} {body : List (Stmt Unit)}
    (he : q.feed.current.kind = .keyword .elseK) :
    (q.state (⟨.ifThen p c, done⟩ :: outer) body).step =
      .go [] ⟨q.feed.pull.reader, ⟨.ifElse p c body.reverse, done⟩ :: outer, []⟩ := by
  obtain ⟨⟨last, _ | ⟨⟨l, p⟩, rest⟩, p', pulled⟩, faults⟩ := q
  · cases he
  · cases l <;> cases he
    cases rest <;> rfl

/-- A list of statements in a block, and not before an alternative, ends before the end of the
    block. -/
theorem kind_of_ends {o : Opener} {i : Item} (h : Ends (some o) i)
    (he : o.takesElse → i.kind ≠ .keyword .elseK) : i.kind = .keyword .endK := by
  rcases h with h | ⟨ho, h⟩
  · exact h
  · exact absurd h (he ho)

/-- A call and the steps agree. The induction is on the call. Where it reads tokens, that is one
    step; where it calls another rule, the steps go on from one call to the next, and the opener of
    a block, which the rule of statements remembers, is what they keep for it. -/
theorem Call.agrees {c : Rule} {e : Exit c.Result} (h : Call c q e r) : c.Agrees q e r := by
  induction h with
  | whole h =>
    intro outer done t ht he
    have hr := (Feeding.follows_start.read h).1
    refine outlook_of_finish ?_
    rw [step_start ht he, ParseState.attempt, hr]
  | opening h _ ih =>
    intro outer done t ht he
    have hr := (Feeding.follows_start.read h).1
    refine (outlook_of_go ?_).trans (ih outer done)
    rw [step_start ht he, ParseState.attempt, hr]
  | refused h hf =>
    intro outer done t ht he
    have hr := (Feeding.follows_start.refused h).1
    refine outlook_of_recover hf ?_
    rw [step_start ht he, ParseState.attempt, hr]
  | @alternative q r r' p c body _ _ he _ ihb ihi =>
    intro outer done
    refine (ihb (⟨.ifThen p c, done⟩ :: outer) [] rfl).trans ((outlook_of_go ?_).trans
      (ihi outer done))
    rw [List.append_nil, step_alternative he, List.reverse_reverse]
  | @closed o _ _ _ body _ hb he hc ih =>
    intro outer done
    refine (ih (⟨o, done⟩ :: outer) [] rfl).trans ?_
    dsimp only
    rw [List.append_nil]
    exact outlook_of_close (kind_of_ends hb.ends he) hc
  | @blockRaised o _ _ _ ih => exact fun outer done => ih (⟨o, done⟩ :: outer) [] rfl
  | ended h => exact fun outer done _ => rfl
  | @cut o q p h =>
    intro outer done hi
    obtain ⟨⟨last, _ | ⟨t, rest⟩, p', pulled⟩, faults⟩ := q
    · obtain rfl := Item.eof.inj h
      cases outer with
      | nil => cases hi
      | cons o outer =>
        rw [outlook, state, Feed.reader, ParseState.faults_of_unclosed, ParseState.run_of_unclosed]
        rfl
    · cases h
  | @returned i _ _ _ t s e ht he _ _ ih ihs =>
    intro outer done hi
    subst hi
    refine (ih outer done t ht he).trans ((ihs outer (s :: done) rfl).trans ?_)
    cases e with
    | returned b => simp [Exit.map]
    | _ => rfl
  | aborted ht he _ _ ih ihs =>
    intro outer done hi
    exact (ih outer done _ ht (hi ▸ he)).trans (ihs outer done hi)
  | raised ht he _ ih =>
    intro outer done hi
    exact ih outer done _ ht (hi ▸ he)

/-! ## Results -/

/-- What is reported when a call comes out: its result, if no fault has been recorded. -/
def outcome {α : Type} (e : Exit α) (r : Parser) : Except ParseFailure α :=
  match e, r.faults with
  | .returned a, [] => .ok a
  | _, faults => .error (.syntactic faults)

theorem outcome_raised {α : Type} (r : Parser) :
    outcome (.raised : Exit α) r = .error (.syntactic r.faults) := rfl

/-- Outside all blocks, a list of statements ends at the end of the program. -/
theorem unread_eq_nil_of_ends (h : Ends none q.feed.current) : q.feed.unread = [] := by
  obtain ⟨⟨last, _ | ⟨⟨l, p⟩, rest⟩, _, _⟩, _⟩ := q
  · rfl
  · cases l <;> cases h

theorem Passage.unread_eq_nil {e : Exit (Block Unit)} (h : Passage none q e r) :
    r.feed.unread = [] := by
  by_cases he : e = .raised
  · exact h.ended he
  · exact unread_eq_nil_of_ends (h.ends he)

/-- What has been asked for and what has not, from the start of a stream on, is all of it. -/
theorem pulled_start {ts : List Token} {p : Pos} (h : (start ts p).feed.Onward g) :
    g.pulled ++ g.toCome = Stream.items ⟨ts, .eof p⟩ := by
  rw [h.pulled]
  cases ts <;> rfl

/-- At the end of the program, outside all blocks, the steps come to an end. -/
theorem outlook_of_eof (hq : q.feed.unread = []) :
    q.outlook [] done = (q.faults, .complete done.reverse) := by
  rw [outlook, state, Feed.reader, hq, ParseState.faults_of_eof, ParseState.run_of_eof,
    List.append_nil]

/-- The parser that calls is the one that steps. -/
theorem result_parse {ts : List Token} {p : Pos} {e : Exit (Block Unit)}
    (h : Call (.statements none) (start ts p) e r) :
    (Stream.parse ⟨ts, .eof p⟩).result = r.outcome e := by
  have hp : Passage none (start ts p) e r := h.advances
  have ha : ((ParseState.ofStream ⟨ts, .eof p⟩).faults,
      (ParseState.ofStream ⟨ts, .eof p⟩).run.2) = _ := h.agrees [] [] rfl
  rw [Stream.result_parse]
  cases e with
  | returned b =>
    obtain ⟨hfaults, hend⟩ := Prod.mk.inj (ha.trans (outlook_of_eof hp.unread_eq_nil))
    rw [hfaults, hend, List.append_nil, List.reverse_reverse]
    obtain ⟨feed, _ | _⟩ := r <;> rfl
  | aborted => exact absurd rfl hp.ne_aborted
  | raised =>
    obtain ⟨hfaults, hend⟩ := Prod.mk.inj ha
    rw [hfaults, hend]
    rfl

/-- So is the parser of lone expressions. -/
theorem result_parseExpr (ts : List Token) (p : Pos) :
    (Stream.parseExpr ⟨ts, .eof p⟩).result =
      outcome (start ts p).loneExpr.1 (start ts p).loneExpr.2 := by
  rcases hq : (start ts p).feed.readLoneExpr with ⟨f | e, g⟩
  · have hr := (Feeding.follows_loneExpr.refused hq).1
    change Reading.loneExpr (.ofStream ⟨ts, .eof p⟩) = _ at hr
    rw [Stream.parseExpr, hr, loneExpr, hq]
    dsimp only
    split
    · rfl
    · obtain ⟨-, hf, hskip⟩ | ⟨-, hf, hskip⟩ := skipStatement_of_fail (q := start ts p) (f := f)
          (r := (fail ⟨g, _⟩ f).2) rfl
      · rw [hskip, outcome_raised, hf]
        rfl
      · rw [hskip, outcome_raised, hf]
        rfl
  · have hr := (Feeding.follows_loneExpr.read hq).1
    change Reading.loneExpr (.ofStream ⟨ts, .eof p⟩) = _ at hr
    rw [Stream.parseExpr, hr, loneExpr, hq]
    rfl

/-- The parser makes progress, whatever the tokens are, and never reads past the end.

    A call for a statement that returns it or aborts it leaves fewer tokens unread than it found;
    `synchronize` takes all tokens up to and including a semicolon, or raises at the end. So every
    call of a rule comes out, in one way: for a statement, or for the statements of a list at any
    level of nesting. What a call asks for is what comes next in the stream, and at the end of the
    program that is nothing.

    A program is parsed by such a call, with the result of `Stream.parse`. Then each token has been
    asked for once, and so has the end. In a lone expression, too, nothing is asked for twice. -/
theorem every_call_ends (ts : List Token) (p : Pos) :
    (∀ (q r : Parser) (e : Exit (Stmt Unit)), Call .statement q e r → e ≠ .raised →
      r.feed.unread.length < q.feed.unread.length) ∧
    (∀ q : Parser, q.Synchronized q.synchronize) ∧
    (∀ (q : Parser) (c : Rule), ∃! er : Exit c.Result × Parser, Call c q er.1 er.2) ∧
    (∀ (q r : Parser) (c : Rule) (e : Exit c.Result), Call c q e r → q.feed.Onward r.feed ∧
      (q.feed.unread = [] → r.feed.pulled = q.feed.pulled)) ∧
    (∃ e r, Call (.statements none) (start ts p) e r ∧
      r.feed.pulled = Stream.items ⟨ts, .eof p⟩ ∧
      (Stream.parse ⟨ts, .eof p⟩).result = r.outcome e) ∧
    (start ts p).loneExpr.2.feed.pulled <+: Stream.items ⟨ts, .eof p⟩ ∧
      (Stream.parseExpr ⟨ts, .eof p⟩).result =
        outcome (start ts p).loneExpr.1 (start ts p).loneExpr.2 := by
  refine ⟨fun q r e h => Progress.lt h.advances, synchronized, existsUnique_call,
    fun q r c e h => ⟨h.onward, h.onward.pulled_eq⟩, ?_, ?_, result_parseExpr ts p⟩
  · obtain ⟨e, r, h⟩ := exists_call (start ts p) (.statements none)
    have hp : Passage none (start ts p) e r := h.advances
    refine ⟨e, r, h, ?_, result_parse h⟩
    have hpulled := pulled_start hp.onward
    rwa [Feed.toCome, hp.unread_eq_nil, Stream.items, List.map_nil, List.nil_append,
      List.tail_cons, List.append_nil] at hpulled
  · exact ⟨_, pulled_start (onward_loneExpr _)⟩

end Parser

end MiniPL
