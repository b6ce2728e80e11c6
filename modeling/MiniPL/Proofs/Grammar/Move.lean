import MiniPL.Proofs.Grammar.Prefix
import MiniPL.Proofs.Grammar.Statements

/-!
# Moves of the parser

While there are tokens, a step of the parser takes some of them, up to the next semicolon at
most, and then makes a *move* (`ParseState.Move`): it finishes a statement, enters a block, or
stops at a fault. Which tokens it takes and which move it makes depends on the open blocks,
and of what follows these tokens on the first item only (`ParseState.Moves`); and every such
state has a move (`ParseState.exists_moves`).

Between two statements of a program (`Derivation.Opens`) moves go on with a program, and a
fault is where no program goes on like this (`ParseState.Move.Sound`), unless the nesting of
parentheses is the fault.
-/

namespace MiniPL

namespace ParseState

open MiniPL.Derivation (Opens Viable)

/-- What a step does after the tokens that it takes. -/
inductive Move
  /-- A statement is finished, but for its semicolon. -/
  | finish (s : Stmt Unit) (outer : List OpenBlock) (done : List (Stmt Unit))
  /-- A block is entered. -/
  | enter (outer : List OpenBlock) (done : List (Stmt Unit))
  /-- A fault is found. -/
  | fault (f : Located SyntaxFault) (outer : List OpenBlock) (done : List (Stmt Unit))

namespace Move

/-- The step with a move made at `r`. -/
def step (r : Reader) : Move → Step
  | finish s outer done => ParseState.finish s r outer done
  | enter outer done => .go [] ⟨r, outer, done⟩
  | fault f outer done => recover f r outer done

/-- A move is made after one token at least, unless it is a fault: that is found at the
    next item. -/
inductive Placed (w : List Token) (next : Item) : Move → Prop
  | finish {s : Stmt Unit} {outer : List OpenBlock} {done : List (Stmt Unit)} (h : w ≠ []) :
    Placed w next (.finish s outer done)
  | enter {outer : List OpenBlock} {done : List (Stmt Unit)} (h : w ≠ []) :
    Placed w next (.enter outer done)
  | fault {f : Located SyntaxFault} {outer : List OpenBlock} {done : List (Stmt Unit)}
    (h : f.pos = next.pos) : Placed w next (.fault f outer done)

/-- A move is right after the tokens `v` and then `w`, if `next` is the next item: a statement
    is finished if it is derived and may stand there, a block is entered if a program gets
    there, and a fault is found at `next`, where the program cannot go on like this, or where
    parentheses are nested too deeply. -/
inductive Sound (v w : List Token) (next : Item) : Move → Prop
  | finish {outer : List OpenBlock} {done : List (Stmt Unit)} {u : List Token}
    (h : Opens u outer done) (d : Derivation.Stmt) (hw : u ++ d.tokens = v ++ w) :
    Sound v w next (.finish d.tree outer done)
  | enter {outer : List OpenBlock} {done : List (Stmt Unit)} (h : Opens (v ++ w) outer done) :
    Sound v w next (.enter outer done)
  | fault {outer : List OpenBlock} {done : List (Stmt Unit)} {f : SyntaxFault}
    (hf : f.found? = some next.kind) (h : Viable ((v ++ w).map .token)) :
    Sound v w next (.fault ⟨f, next.pos⟩ outer done)
  | deep {outer : List OpenBlock} {done : List (Stmt Unit)}
    (h : ∀ n, n + (Reading.nestingLimit + 1) ≤ w.foldl Token.parens n) :
    Sound v w next (.fault ⟨.nestedTooDeeply, next.pos⟩ outer done)

/-- The move after what a statement starts with. -/
def ofStart (outer : List OpenBlock) (done : List (Stmt Unit)) : Start → Move
  | .whole s => finish s outer done
  | .opening o => enter (⟨o, done⟩ :: outer) []

end Move

/-- With the blocks `outer` open and the statements `done` in the innermost one, a step takes
    the tokens `w` and makes the move `m`, if `next` is the item after them. -/
structure Moves (outer : List OpenBlock) (done : List (Stmt Unit)) (w : List Token) (next : Item)
    (m : Move) : Prop where
  step : ∀ l rest p, Item.first rest (.eof p) = next →
    ParseState.step ⟨⟨l, w ++ rest, .eof p⟩, outer, done⟩ =
      m.step ⟨Token.lastPos l w, rest, .eof p⟩
  no_semicolon : ∀ t ∈ w, t.lexeme ≠ .symbol .semicolon
  placed : m.Placed w next
  sound : ∀ v, Opens v outer done → m.Sound v w next

variable {outer outer' : List OpenBlock} {done done' : List (Stmt Unit)}

theorem attempt_of_takes {α : Type} {x : Reading α} {w rest : List Token} {next : Item}
    {o : Except (Located SyntaxFault) α} {k : α → Reader → Step} {l p : Pos}
    (hx : x.Takes w next o) (h : Item.first rest (.eof p) = next) :
    attempt x ⟨l, w ++ rest, .eof p⟩ outer done k =
      match o with
      | .ok a => k a ⟨Token.lastPos l w, rest, .eof p⟩
      | .error f => recover f ⟨Token.lastPos l w, rest, .eof p⟩ outer done := by
  rw [attempt, hx l rest p h]
  cases o <;> rfl

/-- A step that reads a language has a move. -/
theorem exists_moves_of_reads {α : Type} {x : Reading α} {L : α → List Token → Prop}
    {t : Token} {ts : List Token} {p : Pos} (g : α → Move) (outer' : List OpenBlock)
    (done' : List (Stmt Unit)) (hx : x.Reads L (Reading.nestingLimit + 1))
    (hstep : ∀ l ts p, ParseState.step ⟨⟨l, t :: ts, .eof p⟩, outer, done⟩ =
      attempt x ⟨l, t :: ts, .eof p⟩ outer' done' fun a r => (g a).step r)
    (hL : ∀ a w, L a w → (∀ next, (g a).Placed w next) ∧ ∀ v, Opens v outer done →
      Viable ((v ++ w).map .token) ∧ ∀ next, (g a).Sound v w next) :
    ∃ w rest m, t :: ts = w ++ rest ∧ Moves outer done w (Item.first rest (.eof p)) m := by
  obtain ⟨w, rest, o, hts, ht, hw, ho⟩ := hx.readsAt (t :: ts) p
  -- Whatever follows `w` with the same first item, the current token is `t`.
  have hcurrent : ∀ l rest' p', Item.first rest' (.eof p') = Item.first rest (.eof p) →
      ParseState.step ⟨⟨l, w ++ rest', .eof p'⟩, outer, done⟩ =
        attempt x ⟨l, w ++ rest', .eof p'⟩ outer' done' fun a r => (g a).step r := by
    intro l rest' p' h
    have ht : Item.first (w ++ rest') (.eof p') = .token t := by
      rw [Item.first_append, h, ← Item.first_append, ← hts, Item.first_cons]
    obtain ⟨ts', ht⟩ := Item.exists_cons_of_first ht
    rw [ht]
    exact hstep l ts' p'
  have hfault : ∀ f, f.pos = (Item.first rest (.eof p)).pos →
      x.Takes w (Item.first rest (.eof p)) (.error f) →
      (∀ v, Opens v outer done →
        (Move.fault f outer' done').Sound v w (Item.first rest (.eof p))) →
      ∃ w rest m, t :: ts = w ++ rest ∧ Moves outer done w (Item.first rest (.eof p)) m := by
    intro f hf ht hs
    refine ⟨w, rest, .fault f outer' done', hts, ⟨?_, hw, .fault hf, hs⟩⟩
    intro l rest' p' h
    rw [hcurrent l rest' p' h, attempt_of_takes ht h]
    rfl
  cases ho with
  | @ok a ha =>
    refine ⟨w, rest, g a, hts, ⟨?_, hw, (hL a w ha).1 _, ?_⟩⟩
    · intro l rest' p' h
      rw [hcurrent l rest' p' h, attempt_of_takes ht h]
    · intro v hv
      exact ((hL a w ha).2 v hv).2 _
  | fault hf h =>
    obtain ⟨a, u, ha⟩ := h
    refine hfault _ rfl ht fun v hv => .fault hf (((hL a _ ha).2 v hv).1.of_isPrefix ?_)
    rw [← List.append_assoc]
    exact (List.prefix_append (v ++ w) u).map _
  | deep h => exact hfault _ rfl ht fun v _ => .deep h

/-- A finished statement may stand where it was started. -/
theorem viable_of_finish {u v w : List Token} (h : Opens u outer done) (d : Derivation.Stmt)
    (hw : u ++ d.tokens = v ++ w) : Viable ((v ++ w).map .token) := by
  refine (h.snoc d .start).viable.of_isPrefix ?_
  rw [hw]
  exact (List.prefix_append (v ++ w) _).map _

/-- While there are tokens, a step has a move. -/
theorem exists_moves (outer : List OpenBlock) (done : List (Stmt Unit)) {ts : List Token}
    (hts : ts ≠ []) (p : Pos) :
    ∃ w rest m, ts = w ++ rest ∧ Moves outer done w (Item.first rest (.eof p)) m := by
  obtain ⟨⟨l, q⟩, ts, rfl⟩ := List.exists_cons_of_ne_nil hts
  have hstart : (∀ l' ts p, ParseState.step ⟨⟨l', ⟨l, q⟩ :: ts, .eof p⟩, outer, done⟩ =
      attempt .start ⟨l', ⟨l, q⟩ :: ts, .eof p⟩ outer done fun start r =>
        match start with
        | .whole s => finish s r outer done
        | .opening o => .go [] ⟨r, ⟨o, done⟩ :: outer, []⟩) →
      ∃ w rest m, ⟨l, q⟩ :: ts = w ++ rest ∧
        Moves outer done w (Item.first rest (.eof p)) m := by
    intro h
    refine exists_moves_of_reads (Move.ofStart outer done) outer done Reading.reads_start ?_ ?_
    · intro l' ts p
      rw [h l' ts p]
      congr
      funext st r
      cases st <;> rfl
    · rintro (s | o) w ⟨d, rfl, rfl⟩
      · refine ⟨fun _ => .finish d.tokens_ne_nil, fun v hv => ?_⟩
        exact ⟨viable_of_finish hv d rfl, fun _ => .finish hv d rfl⟩
      · refine ⟨fun _ => .enter d.tokens_ne_nil, fun v hv => ?_⟩
        exact ⟨(hv.enter d).viable, fun _ => .enter (hv.enter d)⟩
  cases l with
  | keyword k =>
    cases k with
    | endK =>
      rcases outer with _ | ⟨⟨o, before⟩, outer⟩
      · exact hstart fun _ _ _ => rfl
      · -- The innermost block ends.
        refine exists_moves_of_reads (fun _ => .finish (o.close done.reverse) outer before) outer
          before (Reading.reads_closing o _) (fun _ _ _ => rfl) ?_
        rintro _ w ⟨q₁, q₂, rfl⟩
        refine ⟨fun _ => .finish nofun, fun v hv => ?_⟩
        obtain ⟨u, d, hu, hd, hw⟩ := hv.exists_close q₁ q₂
        exact ⟨viable_of_finish hu d hw, fun _ => hd ▸ .finish hu d hw⟩
    | elseK =>
      rcases outer with _ | ⟨⟨_ | ⟨p₁, c⟩ | _, before⟩, outer⟩
      case cons.ifThen =>
        -- The first block of a branch ends, and the other one begins.
        refine exists_moves_of_reads
          (fun _ => .enter (⟨.ifElse p₁ c done.reverse, before⟩ :: outer) [])
          (⟨.ifThen p₁ c, before⟩ :: outer) done (Reading.reads_keyword .elseK)
          (fun _ _ _ => rfl) ?_
        rintro q' w rfl
        refine ⟨fun _ => .enter nofun, fun v hv => ?_⟩
        exact ⟨(hv.alternative q').viable, fun _ => .enter (hv.alternative q')⟩
      all_goals exact hstart fun _ _ _ => rfl
    | _ => exact hstart fun _ _ _ => rfl
  | _ => exact hstart fun _ _ _ => rfl

end ParseState

end MiniPL
