import Mathlib.Algebra.Group.Nat.Defs
import MiniPL.Proofs.Command.Agreement
import MiniPL.Proofs.Grammar.Acceptance

/-!
# Prompts on fresh lines

An interactive session is a row of turns: each one shows a prompt, asks for a line, and does
something with it (`Interactive.continueFrom_eq_turns`). Whatever a turn does, it leaves the output
at the start of a line, for the next prompt, unless it runs a snippet that fails where a conversion
is refused: nothing is added to what such a snippet has written
(`Interactive.session_turns`, `Interactive.session_of_large_integer`).
-/

namespace MiniPL

/-- Whether what comes after a text starts a line: the text is empty, or ends with a line feed. -/
def Text.FreshLine (s : String) : Prop := s = "" ∨ s.toList.getLast? = some '\n'

instance (s : String) : Decidable (Text.FreshLine s) := inferInstanceAs (Decidable (_ ∨ _))

theorem Text.freshLine_append (s : String) {t : String} (h : t.toList.getLast? = some '\n') :
    FreshLine (s ++ t) :=
  .inr (by rw [String.toList_append, List.getLast?_append, h, Option.some_or])

/-- The output of a row of events is what is written. -/
theorem Event.join_output (events : List Event) :
    String.join (events.map output) = .join (events.filterMap written?) := by
  induction events with
  | nil => rfl
  | cons e rest ih =>
    rw [List.map_cons, String.join_cons, ih]
    cases e with
    | wrote text => exact String.join_cons.symm
    | log e => exact String.empty_append
    | asked => exact String.empty_append
    | explained e source? => exact String.empty_append

theorem Event.filterMap_written?_log (log : List LogEntry) :
    (log.map Event.log).filterMap written? = [] := by
  simp [List.filterMap_map, Function.comp_def, written?]

/-- From the first power of ten on that has more digits than the limit, integers are too long to be
    written. -/
theorem Text.writeInt_of_le {n : Int} (h : 10 ^ digitLimit ≤ n.natAbs) :
    writeInt n = .error .tooLong := by
  refine if_neg fun hle => ?_
  rw [Nat.length_repr_le_iff (by decide)] at hle
  omega

namespace Interactive

/-! ## Turns -/

/-- What a session does with a line, or at the end of its lines. -/
inductive Turn
  | ended
  | quit
  | passed
  /-- The line is held back as a part of a snippet. -/
  | held (line : String)
  /-- The line is the last one of a snippet, which is run on the variables in `σ`, with the lines
      after it. -/
  | submitted (line : String) (σ : Store VarType) (source : String) (rest : List String)

/-- What happens in a turn once the line has been asked for. -/
def Turn.events : Turn → List Event
  | ended => [.wrote "\n"]
  | quit => []
  | passed => []
  | held line => (countBlocks line).1.map .log
  | submitted line σ source rest =>
    (countBlocks line).1.map .log ++ (submit σ source rest).events

/-- What a turn shows between its prompt and the next one. -/
def Turn.output (t : Turn) : String := .join (t.events.map Event.output)

/-- The turns of a session that goes on with the given lines, each with whether its prompt is one
    within a snippet. -/
def turns (σ : Store VarType) (held : List String) (depth : Int) :
    List String → List (Bool × Turn)
  | [] => [(!held.isEmpty, .ended)]
  | line :: rest =>
    if held.isEmpty ∧ Text.trim line ∈ quitWords then [(!held.isEmpty, .quit)]
    else if held.isEmpty ∧ Text.trim line = "" then
      (!held.isEmpty, .passed) :: turns σ [] depth rest
    else
      let lines := held ++ [line]
      let balance := (countBlocks line).2
      if depth + balance > 0 then
        (!held.isEmpty, .held line) :: turns σ lines (depth + balance) rest
      else
        let outcome := submit σ (Text.unlines lines) rest
        (!held.isEmpty, .submitted line σ (Text.unlines lines) rest) ::
          turns outcome.store [] 0 (rest.drop outcome.reads)
termination_by lines => lines.length
decreasing_by all_goals (simp only [List.length_cons, List.length_drop]; omega)

/-- A session takes its turns one after the other, with a prompt before each of them. -/
theorem continueFrom_eq_turns (σ : Store VarType) (held : List String) (depth : Int)
    (lines : List String) :
    continueFrom σ held depth lines = (turns σ held depth lines).flatMap fun (inSnippet, t) =>
      [.wrote (prompt inSnippet), .asked] ++ t.events := by
  fun_induction turns σ held depth lines with
  | case1 σ held depth => simp [continueFrom, Turn.events]
  | case2 σ held depth line rest hquit =>
    rw [continueFrom, if_pos hquit]
    simp [Turn.events]
  | case3 σ held depth line rest hquit hblank ih =>
    rw [continueFrom, if_neg hquit, if_pos hblank, ih]
    simp [Turn.events]
  | case4 σ held depth line rest hquit hblank lines balance hopen ih =>
    rw [continueFrom, if_neg hquit, if_neg hblank]
    dsimp only
    rw [if_pos hopen, ih]
    simp [Turn.events]
  | case5 σ held depth line rest hquit hblank lines balance hopen outcome ih =>
    rw [continueFrom, if_neg hquit, if_neg hblank]
    dsimp only
    rw [if_neg hopen, ih]
    simp [Turn.events, outcome, lines]

/-- Every snippet of a session is run on variables with values of their types. -/
theorem fits_of_mem_turns {σ τ : Store VarType} (hσ : σ.Fits false) {held lines rest : List String}
    {depth : Int} {inSnippet : Bool} {line source : String}
    (h : (inSnippet, .submitted line τ source rest) ∈ turns σ held depth lines) :
    τ.Fits false := by
  fun_induction turns σ held depth lines with
  | case1 | case2 => simp at h
  | case3 _ _ _ _ _ _ _ ih => exact ih hσ (by simpa using h)
  | case4 _ _ _ _ _ _ _ _ _ _ ih => exact ih hσ (by simpa using h)
  | case5 =>
    rename_i ih
    rcases List.mem_cons.1 h with heq | h
    · cases heq
      exact hσ
    · exact ih (Session.sound_snippet hσ _ _).fits h

/-! ## What a turn leaves -/

/-- What is shown of a snippet that came out as told. -/
def shown (writes : List String) (echo : Bool) (failure? : Option Failure) : String :=
  .join (writes ++ (closingBreak writes echo failure?).filterMap Event.written?)

theorem freshLine_of_due {writes : List String} {echo : Bool} {failure? : Option Failure}
    (h : closingBreak writes echo failure? = [.wrote "\n"]) :
    Text.FreshLine (shown writes echo failure?) := by
  rw [shown, h, String.join_append]
  exact Text.freshLine_append _ rfl

/-- A run that ends leaves a fresh line. -/
theorem freshLine_of_success (writes : List String) (echo : Bool) :
    Text.FreshLine (shown writes echo none) := by
  by_cases hdue : echo || writes.getLast?.any fun last => last.toList.getLast? != some '\n'
  · exact freshLine_of_due (if_pos hdue)
  · have hbreak : closingBreak writes echo none = [] := if_neg hdue
    rw [shown, hbreak, List.filterMap_nil, List.append_nil]
    rcases List.eq_nil_or_concat writes with rfl | ⟨init, last, hlast⟩
    · exact .inl rfl
    · rw [List.concat_eq_append] at hlast
      subst hlast
      rw [String.join_append]
      refine Text.freshLine_append _ ?_
      have hend := (Bool.or_eq_false_iff.1 (Bool.eq_false_iff.2 hdue)).2
      simpa [String.join] using hend

/-- So does a failure that has a diagnostic: it gets a line feed after what was written. -/
theorem freshLine_of_report {e : Failure} {r : Report} (h : e.explain = .report r)
    (writes : List String) (echo : Bool) : Text.FreshLine (shown writes echo (some e)) := by
  cases writes with
  | nil =>
    have hbreak : closingBreak [] echo (some e) = [] := by simp [closingBreak, h]
    exact .inl (by rw [shown, hbreak]; rfl)
  | cons w writes =>
    exact freshLine_of_due (by simp [closingBreak, h])

/-- After a conversion that is refused there is no line feed. -/
theorem shown_of_conversion (c : Text.ConversionFault) (writes : List String) (echo : Bool) :
    shown writes echo (some (.halted (.conversion c))) = .join writes := by
  rw [shown, closingBreak]
  exact congrArg String.join (List.append_nil writes)

/-- Runs a snippet, with the given lines after it. -/
def runBefore (σ : Store VarType) (source : String) (rest : List String) : Outcome × Option Bool :=
  Session.runSnippet σ source (rest.map fun line => some (Text.dropReturns line))

/-- The outcome of the snippet that a turn runs, if it runs one. -/
def Turn.outcome? : Turn → Option Outcome
  | submitted _ σ source rest => some (runBefore σ source rest).1
  | _ => none

/-- What a turn shows of a snippet is what the snippet writes, and the line feed after it. -/
theorem output_submitted (line : String) (σ : Store VarType) (source : String)
    (rest : List String) :
    let run := runBefore σ source rest
    (Turn.submitted line σ source rest).output =
      shown run.1.writes (run.2.getD false) run.1.failure? := by
  have hexplained (e? : Option Failure) :
      (e?.elim [] fun e => [Event.explained e.explain source]).filterMap Event.written? = [] := by
    cases e? <;> rfl
  simp only [Turn.output, Turn.events, submit, Event.join_output, List.filterMap_append,
    Event.filterMap_written?_log, hexplained, List.nil_append, List.append_nil, shown,
    Outcome.writes, runBefore]

/-- A snippet leaves a fresh line, unless a conversion is refused. -/
theorem freshLine_submitted {σ : Store VarType} (hσ : σ.Fits false) (line source : String)
    (rest : List String)
    (h : ∀ c, (runBefore σ source rest).1.failure? ≠ some (.halted (.conversion c))) :
    Text.FreshLine (Turn.submitted line σ source rest).output := by
  have hsound : (runBefore σ source rest).1.Sound σ := Session.sound_snippet hσ source _
  rw [output_submitted]
  cases hfailure : (runBefore σ source rest).1.failure? with
  | none => exact freshLine_of_success _ _
  | some e =>
    rcases (hsound.regular e hfailure).explained with ⟨r, hr⟩ | ⟨c, rfl⟩
    · exact freshLine_of_report hr _ _
    · exact absurd hfailure (h c)

/-- A session shows its banner, and then takes turns, each with a prompt before it. A turn leaves
    a fresh line, unless it runs a snippet that fails where a conversion is refused: then it shows
    what the snippet has written, and no more. -/
theorem session_turns (lines : List String) :
    let turns := turns .empty [] 0 lines
    (session lines).events = .wrote banner :: turns.flatMap (fun (inSnippet, t) =>
      [.wrote (prompt inSnippet), .asked] ++ t.events) ∧
    ∀ inSnippet t, (inSnippet, t) ∈ turns →
      ((∀ o c, t.outcome? = some o → o.failure? ≠ some (.halted (.conversion c))) →
        Text.FreshLine t.output) ∧
      ∀ o c, t.outcome? = some o → o.failure? = some (.halted (.conversion c)) →
        t.output = .join o.writes := by
  refine ⟨congrArg _ (continueFrom_eq_turns _ _ _ lines), fun inSnippet t ht => ?_⟩
  cases t with
  | ended => exact ⟨fun _ => .inr rfl, fun o _ h => absurd h.symm (Option.some_ne_none o)⟩
  | quit => exact ⟨fun _ => .inl rfl, fun o _ h => absurd h.symm (Option.some_ne_none o)⟩
  | passed => exact ⟨fun _ => .inl rfl, fun o _ h => absurd h.symm (Option.some_ne_none o)⟩
  | held line =>
    exact ⟨fun _ => .inl (Event.join_output_log _),
      fun o _ h => absurd h.symm (Option.some_ne_none o)⟩
  | submitted line σ source rest =>
    have hσ := fits_of_mem_turns Store.fits_empty ht
    refine ⟨fun h => freshLine_submitted hσ line source rest fun c => h _ c rfl, ?_⟩
    rintro o c ⟨⟩ hfailure
    rw [output_submitted, hfailure, shown_of_conversion]

/-- Where a snippet writes a text and then an integer that is too large, only the text is shown. -/
theorem output_submitted_of_large {σ : Store VarType} {n : Int}
    (hvalue : σ.value? "n" = some (.int n)) (hlarge : 10 ^ Text.digitLimit ≤ n.natAbs)
    (line : String) (rest : List String) :
    (Turn.submitted line σ "print \"a\"; print n;" rest).output = "a" := by
  let d : Derivation.Block :=
    .cons (.print ⟨1, 1⟩ (.single (.literal ⟨1, 7⟩ (.text "a")))) ⟨1, 10⟩
      (.cons (.print ⟨1, 12⟩ (.single (.var ⟨1, 18⟩ "n"))) ⟨1, 19⟩ .nil)
  let b : Block Nat := [.print ⟨1, 1⟩ (.single 1 (.literal ⟨1, 7⟩ (.text "a"))),
    .print ⟨1, 12⟩ (.single 2 (.var ⟨1, 18⟩ "n"))]
  have hstream : Stream.ofSource "print \"a\"; print n;" = ⟨d.tokens, .eof ⟨1, 20⟩⟩ := by
    decide +kernel
  have hparse : (parseProgram "print \"a\"; print n;").result = .ok b := by
    rw [parseProgram, hstream, Stream.parse_tokens d _ (by decide)]
    rfl
  have hfaults : Block.faults σ b = [] := by
    have hcontains : σ.contains "n" := by
      obtain ⟨c, hc, -⟩ := Option.bind_eq_some_iff.1 hvalue
      rw [Store.contains, hc, Option.isSome_some]
    simp [b, Block.faults, Stmt.faults, Stmt.extend, Expr.faults, Operand.faults, Store.require,
      hcontains]
  have haccept : (Snippet.accept σ "print \"a\"; print n;").result = .ok ⟨b, σ, false⟩ := by
    rw [Snippet.result_accept (Snippet.result_parse_of_program hparse), hfaults]
    rfl
  -- The run writes the text, and stops at the integer.
  have hexec (lines : List (Option String)) : Block.exec b (.start σ lines) =
      ⟨⟨σ, lines, [.executing "Print" ⟨1, 12⟩, .wrote "a", .executing "Print" ⟨1, 1⟩]⟩,
        some (.conversion .tooLong)⟩ := by
    simp only [b, Block.exec, Stmt.exec, Expr.eval, Operand.eval, Literal.eval, Run.withValue,
      Run.write, Value.write, Run.start, Run.log, Run.goOn, Run.stop, hvalue,
      Text.writeInt_of_le hlarge]
    rfl
  rw [output_submitted]
  simp only [runBefore, Session.runSnippet, haccept, Outcome.ofRun, hexec]
  refine (shown_of_conversion _ _ _).trans ?_
  rw [Outcome.writes, List.filterMap_append, Logged.events, Event.filterMap_written?_log]
  rfl

/-- An integer with too many digits to be written, after a text that has been written: the next
    prompt is shown right after the text. -/
theorem session_of_large_integer :
    let first := "var n : int := 10; var i : int; for i in 1..13 do n := n * n; end for;"
    let second := "print \"a\"; print n;"
    let t := Turn.submitted second (submit .empty first [second]).store second []
    (false, t) ∈ turns .empty [] 0 [first, second] ∧ t.output = "a" ∧
      ¬ Text.FreshLine t.output := by
  intro first second t
  obtain ⟨hvalue, hreads⟩ :
      (submit .empty first [second]).store.value? "n" = some (.int (10 ^ 8192)) ∧
        (submit .empty first [second]).reads = 0 := by
    decide +kernel
  have houtput : t.output = "a" := output_submitted_of_large hvalue (by decide +kernel) second []
  have hfirst : Text.unlines ([] ++ [first]) = first := by decide +kernel
  have hsecond : Text.unlines ([] ++ [second]) = second := by decide +kernel
  refine ⟨?_, houtput, houtput ▸ by decide⟩
  rw [turns, if_neg (by decide +kernel), if_neg (by decide +kernel)]
  dsimp only
  rw [if_neg (by decide +kernel), hfirst, hreads, List.drop_zero, turns,
    if_neg (by decide +kernel), if_neg (by decide +kernel)]
  dsimp only
  rw [if_neg (by decide +kernel), hsecond]
  exact List.mem_cons_of_mem _ List.mem_cons_self

end Interactive

end MiniPL
