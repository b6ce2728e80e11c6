import MiniPL.Proofs.Grammar.Faults

/-!
# Streams that break off

A reading leaves the end of the stream as it is, and breaks off only at a fault that is there
(`Reading.Keeps`). So does every step of the parser; and as long as the end is a fault, a step
either goes on, or breaks off at that fault (`ParseState.step_of_fault`). What is noted in
between does not matter: in the end the parser breaks off (`ParseState.run_of_fault`), however
many faults it has found before, and whatever blocks are open. So a lexical fault is reported if
and only if the stream has one (`Stream.result_eq_lexical_iff`).
-/

namespace MiniPL

namespace Reading

variable {α β : Type}

/-- The reading `x` leaves the end of the stream as it is, and breaks off only there. -/
structure Keeps (x : Reading α) : Prop where
  read : ∀ {r r' : Reader} {a : α}, x r = .read a r' → r'.ending = r.ending
  refused : ∀ {r r' : Reader} {fault : Located SyntaxFault},
    x r = .refused fault r' → r'.ending = r.ending
  broken : ∀ {r : Reader} {rejection : Rejection},
    x r = .broken rejection → r.ending = .fault rejection

theorem keeps_pure (a : α) : Keeps (pure a : Reading α) where
  read h := by cases h; rfl
  refused h := by cases h
  broken h := by cases h

theorem keeps_refuse (fault : SyntaxFault) (pos : Pos) : Keeps (refuse fault pos : Reading α) where
  read h := by cases h
  refused h := by cases h; rfl
  broken h := by cases h

theorem Keeps.bind {x : Reading α} {f : α → Reading β} (hx : x.Keeps) (hf : ∀ a, (f a).Keeps) :
    (x >>= f).Keeps where
  read {r _ _} h := by
    rw [bind_apply] at h
    cases hxr : x r with
    | read a s =>
      rw [hxr] at h
      exact ((hf a).read h).trans (hx.read hxr)
    | refused fault s => rw [hxr] at h; cases h
    | broken rejection => rw [hxr] at h; cases h
  refused {r _ _} h := by
    rw [bind_apply] at h
    cases hxr : x r with
    | read a s =>
      rw [hxr] at h
      exact ((hf a).refused h).trans (hx.read hxr)
    | refused fault s => rw [hxr] at h; cases h; exact hx.refused hxr
    | broken rejection => rw [hxr] at h; cases h
  broken {r _} h := by
    rw [bind_apply] at h
    cases hxr : x r with
    | read a s =>
      rw [hxr] at h
      exact (hx.read hxr).symm.trans ((hf a).broken h)
    | refused fault s => rw [hxr] at h; cases h
    | broken rejection => rw [hxr] at h; cases h; exact hx.broken hxr

/-! ## The readings of a program -/

theorem keeps_peek : peek.Keeps where
  read {r _ _} h := by
    rw [peek] at h
    split at h <;> cases h
    rfl
  refused {r _ _} h := by
    rw [peek] at h
    split at h <;> cases h
  broken {r _} h := by
    obtain ⟨last, _ | ⟨t, rest⟩, _ | _⟩ := r <;> cases h
    rfl

theorem keeps_advance : advance.Keeps where
  read {r _ _} h := by
    obtain ⟨last, _ | ⟨t, _ | ⟨u, rest⟩⟩, _ | _⟩ := r <;> cases h <;> rfl
  refused {r _ _} h := by
    obtain ⟨last, _ | ⟨t, _ | ⟨u, rest⟩⟩, _ | _⟩ := r <;> cases h
  broken {r _} h := by
    obtain ⟨last, _ | ⟨t, _ | ⟨u, rest⟩⟩, _ | _⟩ := r <;> cases h
    rfl

theorem keeps_expect (kind : Kind) : (expect kind).Keeps :=
  (keeps_peek).bind fun item => by
    split
    · exact (keeps_advance).bind fun _ => keeps_pure _
    · exact keeps_refuse _ _

theorem keeps_expectName : expectName.Keeps :=
  (keeps_peek).bind fun item => by
    split
    · exact (keeps_advance).bind fun _ => keeps_pure _
    · exact keeps_refuse _ _

theorem keeps_expectType : expectType.Keeps :=
  (keeps_peek).bind fun item => by
    split
    all_goals first
      | exact keeps_refuse _ _
      | exact (keeps_advance).bind fun _ => keeps_pure _

theorem keeps_peekOperator : peekOperator.Keeps :=
  (keeps_peek).bind fun item => by
    split <;> exact keeps_pure _

theorem keeps_operand {inner : Reading (Expr Unit)} (h : inner.Keeps) : (operand inner).Keeps :=
  (keeps_peek).bind fun item => by
    split
    · exact (keeps_advance).bind fun _ => keeps_pure _
    · exact (keeps_advance).bind fun _ => keeps_pure _
    · exact (keeps_advance).bind fun _ => keeps_pure _
    · exact (keeps_advance).bind fun _ => h.bind fun _ => (keeps_expect _).bind fun _ =>
        keeps_pure _
    · exact keeps_refuse _ _

theorem keeps_negated {inner : Reading (Expr Unit)} (h : inner.Keeps) (p : Pos) :
    (negated inner p).Keeps :=
  (keeps_operand h).bind fun _ => (keeps_peek).bind fun _ => (keeps_peekOperator).bind fun o => by
    split
    · exact keeps_refuse _ _
    · exact keeps_pure _

theorem keeps_joined {inner : Reading (Expr Unit)} (h : inner.Keeps) : (joined inner).Keeps :=
  (keeps_operand h).bind fun _ => (keeps_peekOperator).bind fun o => by
    split
    · exact (keeps_advance).bind fun _ => (keeps_operand h).bind fun _ => keeps_pure _
    · exact keeps_pure _

theorem keeps_exprWithin (depth : Nat) : (exprWithin depth).Keeps := by
  induction depth with
  | zero => exact (keeps_peek).bind fun _ => keeps_refuse _ _
  | succ depth ih =>
    refine (keeps_peek).bind fun item => ?_
    split
    · exact (keeps_advance).bind fun _ => keeps_negated ih _
    · exact keeps_joined ih

theorem keeps_expr : expr.Keeps := keeps_exprWithin _

theorem keeps_declaration : declaration.Keeps :=
  (keeps_expect _).bind fun _ => (keeps_expectName).bind fun _ => (keeps_expect _).bind fun _ =>
    (keeps_expectType).bind fun _ => (keeps_peek).bind fun item => by
      split
      · exact (keeps_advance).bind fun _ => (keeps_expr).bind fun _ => keeps_pure _
      · exact keeps_pure _

theorem keeps_assignment : assignment.Keeps :=
  (keeps_expectName).bind fun _ => (keeps_expect _).bind fun _ => (keeps_expr).bind fun _ =>
    keeps_pure _

theorem keeps_output : output.Keeps :=
  (keeps_expect _).bind fun _ => (keeps_expr).bind fun _ => keeps_pure _

theorem keeps_input : input.Keeps :=
  (keeps_expect _).bind fun _ => (keeps_expectName).bind fun _ => keeps_pure _

theorem keeps_assertion : assertion.Keeps :=
  (keeps_expect _).bind fun _ => (keeps_expect _).bind fun _ => (keeps_expr).bind fun _ =>
    (keeps_expect _).bind fun _ => keeps_pure _

theorem keeps_loopHead : loopHead.Keeps :=
  (keeps_expect _).bind fun _ => (keeps_expectName).bind fun _ => (keeps_expect _).bind fun _ =>
    (keeps_expr).bind fun _ => (keeps_expect _).bind fun _ => (keeps_expr).bind fun _ =>
      (keeps_expect _).bind fun _ => keeps_pure _

theorem keeps_branchHead : branchHead.Keeps :=
  (keeps_expect _).bind fun _ => (keeps_expr).bind fun _ => (keeps_expect _).bind fun _ =>
    keeps_pure _

theorem keeps_start : start.Keeps :=
  (keeps_peek).bind fun item => by
    split
    · exact keeps_declaration
    · exact keeps_assignment
    · exact keeps_loopHead
    · exact keeps_branchHead
    · exact keeps_output
    · exact keeps_input
    · exact keeps_assertion
    · exact keeps_refuse _ _

theorem keeps_closing (o : Opener) : (closing o).Keeps :=
  (keeps_expect _).bind fun _ => (keeps_expect _).bind fun _ => keeps_pure _

end Reading

/-- Where a stream breaks off, there is nowhere to go on but in front of that place. -/
theorem Reader.skipStatement_of_fault {r : Reader} {f : Rejection} (h : r.ending = .fault f) :
    r.skipStatement = .broken f ∨ ∃ r', r.skipStatement = .resumed r' ∧ r'.ending = .fault f := by
  rw [skipStatement, h]
  generalize r.unread.dropWhile (·.lexeme != .symbol .semicolon) = ts
  rcases ts with _ | ⟨t, _ | ⟨u, rest⟩⟩
  · exact Or.inl rfl
  · exact Or.inl rfl
  · exact Or.inr ⟨_, rfl, rfl⟩

namespace ParseState

/-- The step goes on in front of the fault `f` at the end of the stream, or breaks off there. -/
inductive Step.Faces (f : Rejection) : Step → Prop
  | go {notes : List Note} {next : ParseState} (h : next.reader.ending = .fault f) :
    Faces f (.go notes next)
  | halt {notes : List Note} : Faces f (.halt notes (.broken f))

variable {r : Reader} {f : Rejection} {outer : List OpenBlock} {done : List (Stmt Unit)}

theorem faces_recover (h : r.ending = .fault f) (g : Located SyntaxFault) :
    (recover g r outer done).Faces f := by
  unfold recover
  rcases Reader.skipStatement_of_fault h with hr | ⟨r', hr, hr'⟩
  · rw [hr]
    exact .halt
  · rw [hr]
    exact .go hr'

theorem faces_finish (h : r.ending = .fault f) (s : Stmt Unit) :
    (finish s r outer done).Faces f := by
  unfold finish
  have hx := Reading.keeps_expect (.symbol .semicolon)
  cases he : Reading.expect (.symbol .semicolon) r with
  | read a r' => exact .go ((hx.read he).trans h)
  | refused g r' => exact .go h
  | broken rejection =>
    obtain rfl := Stream.End.fault.inj ((hx.broken he).symm.trans h)
    exact .halt

theorem faces_attempt {α : Type} {x : Reading α} {k : α → Reader → Step} (hx : x.Keeps)
    (h : r.ending = .fault f) (hk : ∀ a r', r'.ending = .fault f → (k a r').Faces f) :
    (attempt x r outer done k).Faces f := by
  unfold attempt
  cases he : x r with
  | read a r' => exact hk a r' ((hx.read he).trans h)
  | refused g r' => exact faces_recover ((hx.refused he).trans h) g
  | broken rejection =>
    obtain rfl := Stream.End.fault.inj ((hx.broken he).symm.trans h)
    exact .halt

/-- In front of a fault, a step goes on, or breaks off there. -/
theorem step_of_fault {p : ParseState} (h : p.reader.ending = .fault f) : p.step.Faces f := by
  obtain ⟨⟨last, unread, ending⟩, outer, done⟩ := p
  obtain rfl : ending = .fault f := h
  unfold step
  split
  · next rejection hc =>
    cases unread <;> cases hc
    exact .halt
  · next item hc =>
    split
    -- The end of the program is not there to be seen.
    · cases unread <;> cases hc
    · cases unread <;> cases hc
    · exact faces_attempt (Reading.keeps_closing _) rfl fun _ _ h => faces_finish h _
    · exact faces_attempt (Reading.keeps_expect _) rfl fun _ _ h => .go h
    · refine faces_attempt Reading.keeps_start rfl fun a _ h => ?_
      cases a with
      | whole s => exact faces_finish h s
      | opening o => exact .go h

/-- If a stream breaks off, parsing ends there. -/
theorem run_of_fault {p : ParseState} (h : p.reader.ending = .fault f) :
    p.run.2 = .broken f := by
  induction hn : p.reader.unread.length using Nat.strongRecOn generalizing p with
  | ind n ih =>
    subst hn
    have hstep := step_of_fault h
    cases hs : p.step with
    | go notes next =>
      rw [hs] at hstep
      cases hstep with
      | go hnext =>
        rw [run_of_go hs]
        exact ih _ (length_lt_of_step hs) hnext rfl
    | halt notes ending =>
      rw [hs] at hstep
      cases hstep
      rw [run_of_halt hs]

/-- Parsing stops before its end only after a fault. -/
theorem faults_ne_nil_of_stopped (l : Pos) (ts : List Token) (outer : List OpenBlock)
    (done : List (Stmt Unit)) (p : Pos)
    (h : (⟨⟨l, ts, .eof p⟩, outer, done⟩ : ParseState).run.2 = .stopped) :
    (⟨⟨l, ts, .eof p⟩, outer, done⟩ : ParseState).faults ≠ [] := by
  induction l, ts, outer, done using step_induction p with
  | nil l outer done =>
    rcases outer with _ | ⟨o, outer⟩
    · rw [run_of_eof] at h
      cases h
    · rw [faults_of_unclosed]
      exact List.cons_ne_nil _ _
  | semicolon hm ih =>
    rw [hm.leads_semicolon.ending] at h
    rw [hm.leads_semicolon.faults]
    exact ih h
  | missing hw hs hm ih =>
    rw [(hm.leads_missing hs).faults]
    exact List.cons_ne_nil _ _
  | enter hw hm ih =>
    rw [hm.leads_enter.ending] at h
    rw [hm.leads_enter.faults]
    exact ih h
  | resumed hr hf hm ih =>
    rw [(hm.leads_fault hr).faults]
    exact List.cons_ne_nil _ _
  | ended hr hf hm =>
    rw [(hm.faults_of_fault hr).1]
    exact List.cons_ne_nil _ _

end ParseState

namespace Stream

/-- A stream that breaks off is refused with the fault at which it does. -/
theorem result_of_fault {ts : List Token} {f : Rejection} :
    (parse ⟨ts, .fault f⟩).result = .error (.lexical f) := by
  rw [result_parse, ParseState.run_of_fault (p := ParseState.ofStream ⟨ts, .fault f⟩) rfl]

/-- A stream that does not break off is not refused for a lexical fault, and if it is refused,
    there are syntax faults. -/
theorem result_of_eof (ts : List Token) (p : Pos) :
    (∃ program, (parse ⟨ts, .eof p⟩).result = .ok program) ∨
      ∃ fs, fs ≠ [] ∧ (parse ⟨ts, .eof p⟩).result = .error (.syntactic fs) := by
  cases hf : (ParseState.ofStream ⟨ts, .eof p⟩).faults with
  | cons f fs => exact .inr ⟨f :: fs, List.cons_ne_nil _ _, parse_eq_error hf⟩
  | nil =>
    cases he : (ParseState.ofStream ⟨ts, .eof p⟩).run.2 with
    | complete program => exact .inl ⟨program, parse_eq_ok_iff.2 ⟨hf, he⟩⟩
    | stopped => exact absurd hf (ParseState.faults_ne_nil_of_stopped _ _ _ _ _ he)
    | broken rejection => exact absurd he (ParseState.run_ne_broken _ _ _ _ _ _)

end Stream

end MiniPL
