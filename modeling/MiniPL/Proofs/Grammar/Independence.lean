import MiniPL.Proofs.Grammar.Faults

/-!
# What parsing does not depend on

Between two statements, neither the statements that are complete outside all blocks nor the
position of the last token matter for what parsing does next. If some statements come before a
program, they come before all that is complete of it (`ParseState.after`), and nothing else
changes: the same is noted, and the same program follows these statements in the end
(`ParseState.run_after`). And nothing at all changes with the position of the last token
(`ParseState.run_last`): before it is ever asked for, another token is read.
-/

namespace MiniPL

namespace ParseState

/-! ## Statements before the program -/

/-- The statements of the innermost block, if the statements `before` (the last one first)
    come before the program. -/
def doneAfter (before : List (Stmt Unit)) : List OpenBlock → List (Stmt Unit) → List (Stmt Unit)
  | [], done => done ++ before
  | _ :: _, done => done

/-- The open blocks, if the statements `before` come before the program. -/
def outerAfter (before : List (Stmt Unit)) : List OpenBlock → List OpenBlock
  | [] => []
  | b :: outer => ⟨b.opener, doneAfter before outer b.before⟩ :: outerAfter before outer

/-- The place in the program with the statements `before` before it. -/
def after (before : List (Stmt Unit)) (p : ParseState) : ParseState :=
  ⟨p.reader, outerAfter before p.outer, doneAfter before p.outer p.done⟩

/-- The end of the program with the statements `before` before it. -/
def End.after (before : List (Stmt Unit)) : End → End
  | .complete program => .complete (before.reverse ++ program)
  | .stopped => .stopped
  | .broken rejection => .broken rejection

/-- The step with the statements `before` before the program. -/
def Step.after (before : List (Stmt Unit)) : Step → Step
  | .go notes next => .go notes (next.after before)
  | .halt notes ending => .halt notes (ending.after before)

variable {before : List (Stmt Unit)} {outer : List OpenBlock} {done : List (Stmt Unit)}
  {r : Reader}

@[simp] theorem doneAfter_cons (s : Stmt Unit) :
    doneAfter before outer (s :: done) = s :: doneAfter before outer done := by
  cases outer <;> rfl

theorem recover_after (f : Located SyntaxFault) :
    recover f r (outerAfter before outer) (doneAfter before outer done) =
      (recover f r outer done).after before := by
  unfold recover
  cases r.skipStatement <;> rfl

theorem finish_after (s : Stmt Unit) :
    finish s r (outerAfter before outer) (doneAfter before outer done) =
      (finish s r outer done).after before := by
  unfold finish
  cases Reading.expect (.symbol .semicolon) r <;> simp [Step.after, after, End.after]

theorem attempt_after {α : Type} {x : Reading α} {k k' : α → Reader → Step}
    (outer : List OpenBlock) (hk : ∀ a r, k' a r = (k a r).after before) :
    attempt x r (outerAfter before outer) (doneAfter before outer done) k' =
      (attempt x r outer done k).after before := by
  unfold attempt
  cases x r with
  | read a next => exact hk a next
  | refused f next => exact recover_after f
  | broken rejection => rfl

/-- The start of a statement does not depend on the statements before the program. -/
theorem attempt_start_after :
    attempt .start r (outerAfter before outer) (doneAfter before outer done) (fun start r =>
      match start with
      | .whole s => finish s r (outerAfter before outer) (doneAfter before outer done)
      | .opening o =>
        .go [] ⟨r, ⟨o, doneAfter before outer done⟩ :: outerAfter before outer, []⟩) =
    (attempt .start r outer done fun start r =>
      match start with
      | .whole s => finish s r outer done
      | .opening o => .go [] ⟨r, ⟨o, done⟩ :: outer, []⟩).after before := by
  refine attempt_after outer ?_
  intro start r
  rcases start with s | o
  · exact finish_after s
  · -- The statements before the block that is entered are kept in its opener.
    rfl

/-- A step does not depend on the statements before the program. -/
theorem step_after (before : List (Stmt Unit)) (p : ParseState) :
    (p.after before).step = p.step.after before := by
  obtain ⟨r, outer, done⟩ := p
  unfold step
  cases hc : r.current with
  | error rejection => simp [after, hc, Step.after, End.after]
  | ok item =>
    simp only [after, hc]
    rcases item with ⟨l, q⟩ | q
    · cases l with
      | keyword k =>
        cases k with
        | endK =>
          rcases outer with _ | ⟨⟨o, before'⟩, outer⟩
          · exact attempt_start_after
          · exact attempt_after outer fun _ _ => finish_after _
        | elseK =>
          rcases outer with _ | ⟨⟨_ | _ | _, before'⟩, outer⟩
          case cons.ifThen =>
            exact attempt_after (⟨.ifThen _ _, before'⟩ :: outer) fun _ _ => rfl
          all_goals exact attempt_start_after
        | _ => exact attempt_start_after
      | _ => exact attempt_start_after
    · rcases outer with _ | ⟨o, outer⟩
      · simp [Step.after, End.after, outerAfter, doneAfter]
      · rfl

/-- What is noted does not depend on the statements before the program, and they stay there. -/
theorem run_after (before : List (Stmt Unit)) (p : ParseState) :
    (p.after before).run = (p.run.1, p.run.2.after before) := by
  induction hn : p.reader.unread.length using Nat.strongRecOn generalizing p with
  | ind n ih =>
    subst hn
    have h := step_after before p
    cases hp : p.step with
    | go notes next =>
      rw [hp] at h
      rw [run_of_go h, run_of_go hp, ih _ (length_lt_of_step hp) next rfl]
    | halt notes ending =>
      rw [hp] at h
      rw [run_of_halt h, run_of_halt hp]

/-! ## The position of the last token -/

/-- A step does not depend on where the last token was. -/
theorem step_last (l l' : Pos) (ts : List Token) (outer : List OpenBlock)
    (done : List (Stmt Unit)) (p : Pos) :
    step ⟨⟨l, ts, .eof p⟩, outer, done⟩ = step ⟨⟨l', ts, .eof p⟩, outer, done⟩ := by
  by_cases hts : ts = []
  · subst hts
    cases outer <;> rfl
  · -- A move takes a token first, unless it is a fault, which does not tell of the last one.
    obtain ⟨w, rest, m, rfl, hm⟩ := exists_moves outer done hts p
    rw [hm.step l rest p rfl, hm.step l' rest p rfl]
    cases hm.placed with
    | finish hw => rw [Token.lastPos_eq hw l l']
    | enter hw => rw [Token.lastPos_eq hw l l']
    | fault => rfl

/-- Parsing does not depend on where the last token was. -/
theorem run_last (l l' : Pos) (ts : List Token) (outer : List OpenBlock)
    (done : List (Stmt Unit)) (p : Pos) :
    run ⟨⟨l, ts, .eof p⟩, outer, done⟩ = run ⟨⟨l', ts, .eof p⟩, outer, done⟩ := by
  -- After the first step, even the state is the same.
  have h := step_last l l' ts outer done p
  cases hs : step ⟨⟨l', ts, .eof p⟩, outer, done⟩ with
  | go notes next => rw [run_of_go hs, run_of_go (h.trans hs)]
  | halt notes ending => rw [run_of_halt hs, run_of_halt (h.trans hs)]

end ParseState

end MiniPL
