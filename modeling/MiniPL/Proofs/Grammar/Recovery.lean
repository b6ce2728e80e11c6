import MiniPL.Proofs.Grammar.Independence
import MiniPL.Proofs.Syntax.Parts

/-!
# Recovery from faults

Parsing goes on after a semicolon as if nothing had happened: what comes up to there and what
comes after it are parsed independently of each other (`Stream.parse_append`). Tokens that end
in a semicolon, and do not leave a block open, are parsed in the same way whatever follows
them (`ParseState.leads_append`), as no step looks further than a semicolon; and what follows is
parsed as it is alone, as what is kept at a semicolon outside all blocks does not matter
(`MiniPL.Proofs.Grammar.Independence`).
-/

namespace MiniPL

/-- The tokens end in a semicolon, if there are any. -/
def Token.Terminated (ts : List Token) : Prop :=
  ∀ t ∈ ts.getLast?, t.lexeme = .symbol .semicolon

theorem Token.Terminated.of_suffix {rest ts : List Token} (h : Terminated ts)
    (hs : rest <:+ ts) : Terminated rest := by
  obtain ⟨w, rfl⟩ := hs
  intro t ht
  exact h t (by rw [List.getLast?_append, ht]; rfl)

/-- What has no semicolon is not all of what ends in one. -/
theorem Token.Terminated.ne_nil {w rest : List Token} (h : Terminated (w ++ rest)) (hne : w ≠ [])
    (hw : ∀ t ∈ w, t.lexeme ≠ .symbol .semicolon) : rest ≠ [] := by
  rintro rfl
  rw [List.append_nil] at h
  exact hw _ (List.getLast_mem hne) (h _ (List.getLast?_eq_some_getLast hne))

/-- What comes after tokens, if there are any, is not the first item. -/
theorem Item.first_append_eq {rest : List Token} (h : rest ≠ []) (B : List Token) (p q : Pos) :
    first (rest ++ B) (.eof p) = first rest (.eof q) := by
  cases rest with
  | nil => exact absurd rfl h
  | cons t rest => rfl

namespace ParseState

/-- Tokens that end in a semicolon, and are parsed to their end outside all blocks, are parsed
    with the same faults if other tokens follow. -/
theorem leads_append {ts : List Token} (B : List Token) {outer : List OpenBlock}
    {done a : List (Stmt Unit)} {l q : Pos} (p : Pos) (hts : Token.Terminated ts)
    (ha : (⟨⟨l, ts, .eof q⟩, outer, done⟩ : ParseState).run.2 = .complete a) :
    ∃ l', Leads (⟨⟨l, ts, .eof q⟩, outer, done⟩ : ParseState).faults
      ⟨⟨l, ts ++ B, .eof p⟩, outer, done⟩ ⟨⟨l', B, .eof p⟩, [], a.reverse⟩ := by
  induction l, ts, outer, done using step_induction q with
  | nil l outer done =>
    rcases outer with _ | ⟨o, outer⟩
    · rw [run_of_eof] at ha
      obtain rfl := End.complete.inj ha
      rw [List.reverse_reverse, faults_of_eof]
      exact ⟨l, ⟨rfl, rfl⟩⟩
    · rw [run_of_unclosed] at ha
      cases ha
  | semicolon hm ih =>
    rw [hm.leads_semicolon.ending] at ha
    obtain ⟨l', h⟩ := ih (hts.of_suffix ((List.suffix_cons ..).trans (List.suffix_append ..))) ha
    rw [hm.leads_semicolon.faults, List.append_assoc]
    exact ⟨l', hm.leads_semicolon.trans h⟩
  | missing hw hs hm ih =>
    -- No move takes the semicolon at the end, so the next item is not what follows `ts`.
    have hne := hts.ne_nil hw hm.no_semicolon
    rw [(hm.leads_missing hs).ending] at ha
    obtain ⟨l', h⟩ := ih (hts.of_suffix (List.suffix_append ..)) ha
    rw [(hm.leads_missing hs).faults, List.append_assoc]
    rw [← Item.first_append_eq hne B p q] at hm hs
    exact ⟨l', (hm.leads_missing hs).trans h⟩
  | enter hw hm ih =>
    have hne := hts.ne_nil hw hm.no_semicolon
    rw [hm.leads_enter.ending] at ha
    obtain ⟨l', h⟩ := ih (hts.of_suffix (List.suffix_append ..)) ha
    rw [hm.leads_enter.faults, List.append_assoc]
    rw [← Item.first_append_eq hne B p q] at hm
    exact ⟨l', hm.leads_enter.trans h⟩
  | @resumed l w rest t rest' f outer done outer' done' hr hf hm ih =>
    have hne : rest ≠ [] := by
      rintro rfl
      cases hr
    rw [(hm.leads_fault hr).ending] at ha
    obtain ⟨l', h⟩ := ih (hts.of_suffix
      ((suffix_of_resumed hr).trans (List.suffix_append ..))) ha
    rw [(hm.leads_fault hr).faults, List.append_assoc]
    rw [← Item.first_append_eq hne B p q] at hm
    have hr' : (rest ++ B).dropWhile (·.lexeme != .symbol .semicolon) = t :: (rest' ++ B) := by
      rw [List.dropWhile_append, hr]
      rfl
    exact ⟨l', (hm.leads_fault hr').trans h⟩
  | ended hr hf hm =>
    -- This is no end outside all blocks.
    rw [(hm.faults_of_fault hr).2] at ha
    cases ha

/-- After tokens that end in a semicolon, and are parsed to their end outside all blocks,
    parsing finds the same faults as without them and ends in the same way, after the
    statements before. -/
theorem run_append {A B a : List _} {q : Pos} (p : Pos) (hA : Token.Terminated A)
    (ha : (ofStream ⟨A, .eof q⟩).run.2 = .complete a) :
    (ofStream ⟨A ++ B, .eof p⟩).faults =
        (ofStream ⟨A, .eof q⟩).faults ++ (ofStream ⟨B, .eof p⟩).faults ∧
      (ofStream ⟨A ++ B, .eof p⟩).run.2 = (ofStream ⟨B, .eof p⟩).run.2.after a.reverse := by
  obtain ⟨l', h⟩ := leads_append B p hA ha
  -- What was before `B` is the position of a token, and statements outside all blocks.
  have hB := run_after a.reverse ⟨⟨l', B, .eof p⟩, [], []⟩
  rw [run_last l' .start] at hB
  refine ⟨h.faults.trans ?_, h.ending.trans (congrArg Prod.snd hB)⟩
  exact congrArg (_ ++ ·) (congrArg (fun x => x.1.filterMap Note.fault?) hB)

end ParseState

/-- The faults with which parsing a program fails, if it does. -/
def ParseFailure.faults : Except ParseFailure (Block Unit) → List (Located SyntaxFault)
  | .ok _ => []
  | .error (.syntactic fs) => fs
  | .error (.lexical _) => []

/-- If a stream does not break off, all faults that are found are reported. -/
theorem Stream.faults_parse (ts : List Token) (p : Pos) :
    ParseFailure.faults (Stream.parse ⟨ts, .eof p⟩).result =
      (ParseState.ofStream ⟨ts, .eof p⟩).faults := by
  rw [Stream.result_parse]
  cases he : (ParseState.ofStream ⟨ts, .eof p⟩).run.2 with
  | broken rejection => exact absurd he (ParseState.run_ne_broken _ _ _ _ _ _)
  | complete program => cases (ParseState.ofStream ⟨ts, .eof p⟩).faults <;> rfl
  | stopped => rfl

end MiniPL
