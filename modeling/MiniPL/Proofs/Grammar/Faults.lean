import MiniPL.Proofs.Grammar.Move

/-!
# The faults of a program

What is noted while a program is parsed are its faults, in order (`ParseState.faults`), and
the statements that are complete. Parsing *leads* from one place to another if it gets there
with some faults (`ParseState.Leads`). After a move it leads

* past the semicolon after a statement without any fault (`ParseState.Moves.leads_semicolon`);
* with one fault, past nothing, if that semicolon is missing (`ParseState.Moves.leads_missing`);
* into a block without any fault (`ParseState.Moves.leads_enter`);
* with the fault that is found past the next semicolon (`ParseState.Moves.leads_fault`), if
  there is one, and to the end otherwise (`ParseState.Moves.faults_of_fault`).
-/

namespace MiniPL

namespace ParseState

/-- The faults that are found from a place on. -/
def faults (p : ParseState) : List (Located SyntaxFault) := p.run.1.filterMap Note.fault?

/-- Parsing leads from `p` to `q`, with the faults `fs` on the way. -/
structure Leads (fs : List (Located SyntaxFault)) (p q : ParseState) : Prop where
  ending : p.run.2 = q.run.2
  faults : p.faults = fs ++ q.faults

theorem leads_of_go {p q : ParseState} {notes : List Note} (h : p.step = .go notes q) :
    Leads (notes.filterMap Note.fault?) p q := by
  refine ⟨?_, ?_⟩
  · rw [run_of_go h]
  · rw [ParseState.faults, run_of_go h, List.filterMap_append]
    rfl

theorem Leads.trans {fs gs : List (Located SyntaxFault)} {p q r : ParseState}
    (h₁ : Leads fs p q) (h₂ : Leads gs q r) : Leads (fs ++ gs) p r where
  ending := h₁.ending.trans h₂.ending
  faults := by rw [h₁.faults, h₂.faults, List.append_assoc]

theorem faults_of_halt {p : ParseState} {notes : List Note} {ending : End}
    (h : p.step = .halt notes ending) : p.faults = notes.filterMap Note.fault? := by
  rw [ParseState.faults, run_of_halt h]

section

variable {s : Stmt Unit} {f : Located SyntaxFault} {outer outer' : List OpenBlock}
  {done done' : List (Stmt Unit)} {l q p : Pos} {w rest : List Token}

/-- At the end of the program, outside all blocks, nothing is left to find. -/
theorem faults_of_eof : (⟨⟨l, [], .eof p⟩, [], done⟩ : ParseState).faults = [] := by
  have h : step ⟨⟨l, [], .eof p⟩, [], done⟩ = .halt [] (.complete done.reverse) := rfl
  rw [faults_of_halt h]
  rfl

theorem run_of_eof :
    (⟨⟨l, [], .eof p⟩, [], done⟩ : ParseState).run.2 = .complete done.reverse := by
  have h : step ⟨⟨l, [], .eof p⟩, [], done⟩ = .halt [] (.complete done.reverse) := rfl
  rw [run_of_halt h]

/-- At the end of the program, inside a block, that is the last fault. -/
theorem faults_of_unclosed {o : OpenBlock} :
    (⟨⟨l, [], .eof p⟩, o :: outer, done⟩ : ParseState).faults = [⟨.unclosedBlock, p⟩] := by
  have h : step ⟨⟨l, [], .eof p⟩, o :: outer, done⟩ = .halt [_] .stopped := rfl
  rw [faults_of_halt h]
  rfl

theorem run_of_unclosed {o : OpenBlock} :
    (⟨⟨l, [], .eof p⟩, o :: outer, done⟩ : ParseState).run.2 = .stopped := by
  have h : step ⟨⟨l, [], .eof p⟩, o :: outer, done⟩ = .halt [_] .stopped := rfl
  rw [run_of_halt h]

theorem finish_semicolon :
    ∃ notes, finish s ⟨l, Symbol.token .semicolon q :: rest, .eof p⟩ outer done =
      .go notes ⟨⟨q, rest, .eof p⟩, outer, s :: done⟩ ∧ notes.filterMap Note.fault? = [] := by
  have h : Reading.expect (.symbol .semicolon) ⟨l, Symbol.token .semicolon q :: rest, .eof p⟩ =
      .read q ⟨q, rest, .eof p⟩ := Reading.takes_symbol .semicolon q _ l rest p rfl
  rw [finish, h]
  exact ⟨_, rfl, rfl⟩

theorem finish_missing (hs : (Item.first rest (.eof p)).kind ≠ .symbol .semicolon) :
    ∃ notes, finish s ⟨l, rest, .eof p⟩ outer done =
      .go notes ⟨⟨l, rest, .eof p⟩, outer, s :: done⟩ ∧
        notes.filterMap Note.fault? = [⟨.missingSemicolon, l⟩] := by
  have h := Reading.takes_expect_error hs l rest p rfl
  rw [List.nil_append] at h
  rw [finish, h]
  exact ⟨_, rfl, rfl⟩

/-- The tokens from the next semicolon on are the last ones of `rest`, if there are any. -/
theorem suffix_of_skipped {t : Token} {rest' : List Token}
    (h : rest.dropWhile (·.lexeme != .symbol .semicolon) = t :: rest') : t :: rest' <:+ rest := by
  rw [← h]
  exact List.dropWhile_suffix _

theorem suffix_of_resumed {t : Token} {rest' : List Token}
    (h : rest.dropWhile (·.lexeme != .symbol .semicolon) = t :: rest') : rest' <:+ rest :=
  (List.suffix_cons ..).trans (suffix_of_skipped h)

/-- The tokens after the next semicolon. -/
theorem recover_resumed {t : Token} {rest' : List Token}
    (h : rest.dropWhile (·.lexeme != .symbol .semicolon) = t :: rest') :
    ∃ notes, recover f ⟨l, rest, .eof p⟩ outer done =
      .go notes ⟨⟨t.pos, rest', .eof p⟩, outer, done⟩ ∧ notes.filterMap Note.fault? = [f] := by
  rw [recover, Reader.skipStatement, h]
  cases rest' <;> exact ⟨_, rfl, rfl⟩

theorem recover_ended (h : rest.dropWhile (·.lexeme != .symbol .semicolon) = []) :
    ∃ notes, recover f ⟨l, rest, .eof p⟩ outer done = .halt notes .stopped ∧
      notes.filterMap Note.fault? = [f, ⟨.missingSemicolon, p⟩] := by
  rw [recover, Reader.skipStatement, h]
  exact ⟨_, rfl, rfl⟩

/-- After a statement, parsing goes on after its semicolon. -/
theorem Moves.leads_semicolon
    (h : Moves outer done w (.token (Symbol.token .semicolon q)) (.finish s outer' done')) :
    Leads [] ⟨⟨l, w ++ Symbol.token .semicolon q :: rest, .eof p⟩, outer, done⟩
      ⟨⟨q, rest, .eof p⟩, outer', s :: done'⟩ := by
  have hstep := h.step l (Symbol.token .semicolon q :: rest) p rfl
  obtain ⟨notes, hgo, hnotes⟩ := finish_semicolon
  exact hnotes ▸ leads_of_go (hstep.trans hgo)

/-- If there is no semicolon, that is a fault, and parsing goes on. -/
theorem Moves.leads_missing (hs : (Item.first rest (.eof p)).kind ≠ .symbol .semicolon)
    (h : Moves outer done w (Item.first rest (.eof p)) (.finish s outer' done')) :
    Leads [⟨.missingSemicolon, Token.lastPos l w⟩] ⟨⟨l, w ++ rest, .eof p⟩, outer, done⟩
      ⟨⟨Token.lastPos l w, rest, .eof p⟩, outer', s :: done'⟩ := by
  obtain ⟨notes, hgo, hnotes⟩ := finish_missing hs
  exact hnotes ▸ leads_of_go ((h.step l rest p rfl).trans hgo)

/-- Parsing goes on in a block that is entered. -/
theorem Moves.leads_enter
    (h : Moves outer done w (Item.first rest (.eof p)) (.enter outer' done')) :
    Leads [] ⟨⟨l, w ++ rest, .eof p⟩, outer, done⟩
      ⟨⟨Token.lastPos l w, rest, .eof p⟩, outer', done'⟩ :=
  leads_of_go (h.step l rest p rfl)

/-- After a fault, parsing goes on after the next semicolon. -/
theorem Moves.leads_fault {t : Token} {rest' : List Token}
    (hr : rest.dropWhile (·.lexeme != .symbol .semicolon) = t :: rest')
    (h : Moves outer done w (Item.first rest (.eof p)) (.fault f outer' done')) :
    Leads [f] ⟨⟨l, w ++ rest, .eof p⟩, outer, done⟩ ⟨⟨t.pos, rest', .eof p⟩, outer', done'⟩ := by
  obtain ⟨notes, hgo, hnotes⟩ := recover_resumed hr
  exact hnotes ▸ leads_of_go ((h.step l rest p rfl).trans hgo)

/-- If there is no semicolon after a fault, that is the last fault. -/
theorem Moves.faults_of_fault (hr : rest.dropWhile (·.lexeme != .symbol .semicolon) = [])
    (h : Moves outer done w (Item.first rest (.eof p)) (.fault f outer' done')) :
    (⟨⟨l, w ++ rest, .eof p⟩, outer, done⟩ : ParseState).faults = [f, ⟨.missingSemicolon, p⟩] ∧
      (⟨⟨l, w ++ rest, .eof p⟩, outer, done⟩ : ParseState).run.2 = .stopped := by
  obtain ⟨notes, hhalt, hnotes⟩ := recover_ended hr
  have h := (h.step l rest p rfl).trans hhalt
  exact ⟨(faults_of_halt h).trans hnotes, by rw [run_of_halt h]⟩

end

/-- What holds at the end of the stream, and of every place if it holds of the place to which
    the next step leads, holds of all places. -/
theorem step_induction {motive : Pos → List Token → List OpenBlock → List (Stmt Unit) → Prop}
    (p : Pos) (nil : ∀ l outer done, motive l [] outer done)
    (semicolon : ∀ {l q w rest s outer done outer' done'},
      Moves outer done w (.token (Symbol.token .semicolon q)) (.finish s outer' done') →
      motive q rest outer' (s :: done') →
      motive l (w ++ Symbol.token .semicolon q :: rest) outer done)
    (missing : ∀ {l w rest s outer done outer' done'}, w ≠ [] →
      (Item.first rest (.eof p)).kind ≠ .symbol .semicolon →
      Moves outer done w (Item.first rest (.eof p)) (.finish s outer' done') →
      motive (Token.lastPos l w) rest outer' (s :: done') → motive l (w ++ rest) outer done)
    (enter : ∀ {l w rest outer done outer' done'}, w ≠ [] →
      Moves outer done w (Item.first rest (.eof p)) (.enter outer' done') →
      motive (Token.lastPos l w) rest outer' done' → motive l (w ++ rest) outer done)
    (resumed : ∀ {l w rest t rest' f outer done outer' done'},
      rest.dropWhile (·.lexeme != .symbol .semicolon) = t :: rest' →
      f.pos = (Item.first rest (.eof p)).pos →
      Moves outer done w (Item.first rest (.eof p)) (.fault f outer' done') →
      motive t.pos rest' outer' done' → motive l (w ++ rest) outer done)
    (ended : ∀ {l w rest f outer done outer' done'},
      rest.dropWhile (·.lexeme != .symbol .semicolon) = [] →
      f.pos = (Item.first rest (.eof p)).pos →
      Moves outer done w (Item.first rest (.eof p)) (.fault f outer' done') →
      motive l (w ++ rest) outer done)
    (l : Pos) (ts : List Token) (outer : List OpenBlock) (done : List (Stmt Unit)) :
    motive l ts outer done := by
  induction hn : ts.length using Nat.strongRecOn generalizing l ts outer done with
  | ind n ih =>
    subst hn
    by_cases hts : ts = []
    · subst hts
      exact nil l outer done
    · obtain ⟨w, rest, m, rfl, hm⟩ := exists_moves outer done hts p
      rw [List.length_append] at ih
      -- What is left is shorter, as a move takes a token, and so does the semicolon after it.
      cases hm.placed with
      | enter hw =>
        have := List.length_pos_iff.2 hw
        exact enter hw hm (ih _ (by omega) _ _ _ _ rfl)
      | finish hw =>
        have := List.length_pos_iff.2 hw
        -- The semicolon after the statement is taken by the same step, if it is there.
        by_cases hs : (Item.first rest (.eof p)).kind = .symbol .semicolon
        · obtain ⟨q, rest, rfl⟩ := Item.exists_semicolon hs
          rw [List.length_cons] at ih
          exact semicolon hm (ih _ (by omega) _ _ _ _ rfl)
        · exact missing hw hs hm (ih _ (by omega) _ _ _ _ rfl)
      | fault hf =>
        cases hr : rest.dropWhile (·.lexeme != .symbol .semicolon) with
        | nil => exact ended hr hf hm
        | cons t rest' =>
          have hlen := (suffix_of_skipped hr).length_le
          rw [List.length_cons] at hlen
          exact resumed hr hf hm (ih _ (by omega) _ _ _ _ rfl)

/-! ## Results -/

/-- A stream that does not break off is parsed to its end. -/
theorem run_ne_broken (l : Pos) (ts : List Token) (outer : List OpenBlock)
    (done : List (Stmt Unit)) (p : Pos) (rejection : Rejection) :
    (⟨⟨l, ts, .eof p⟩, outer, done⟩ : ParseState).run.2 ≠ .broken rejection := by
  induction l, ts, outer, done using step_induction p with
  | nil l outer done =>
    rcases outer with _ | ⟨o, outer⟩
    · rw [run_of_eof]
      nofun
    · rw [run_of_unclosed]
      nofun
  | semicolon hm ih => rwa [hm.leads_semicolon.ending]
  | missing hw hs hm ih => rwa [(hm.leads_missing hs).ending]
  | enter hw hm ih => rwa [hm.leads_enter.ending]
  | resumed hr hf hm ih => rwa [(hm.leads_fault hr).ending]
  | ended hr hf hm =>
    rw [(hm.faults_of_fault hr).2]
    nofun

end ParseState

theorem Stream.result_parse (s : Stream) : s.parse.result =
    match (ParseState.ofStream s).run.2, (ParseState.ofStream s).faults with
    | .broken rejection, _ => .error (.lexical rejection)
    | .complete program, [] => .ok program
    | _, faults => .error (.syntactic faults) := rfl

/-- A program is accepted if parsing completes it without a fault. -/
theorem Stream.parse_eq_ok_iff {s : Stream} {t : Block Unit} :
    s.parse.result = .ok t ↔
      (ParseState.ofStream s).faults = [] ∧ (ParseState.ofStream s).run.2 = .complete t := by
  rw [s.result_parse]
  cases (ParseState.ofStream s).run.2 <;> cases (ParseState.ofStream s).faults <;> simp

/-- A stream that does not break off is refused with the faults that are found, if there
    are any. -/
theorem Stream.parse_eq_error {ts : List Token} {p : Pos} {f : Located SyntaxFault}
    {fs : List (Located SyntaxFault)}
    (h : (ParseState.ofStream ⟨ts, .eof p⟩).faults = f :: fs) :
    (Stream.parse ⟨ts, .eof p⟩).result = .error (.syntactic (f :: fs)) := by
  rw [Stream.result_parse, h]
  cases he : (ParseState.ofStream ⟨ts, .eof p⟩).run.2 with
  | broken rejection => exact absurd he (ParseState.run_ne_broken _ _ _ _ _ _)
  | complete program => rfl
  | stopped => rfl

end MiniPL
