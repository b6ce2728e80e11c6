import MiniPL.Proofs.Execution.Footprint
import MiniPL.Proofs.Program.Pieces
import MiniPL.Proofs.Typing.Naming

/-!
# Variables that hold a value

The check makes sure that a variable is declared before it is used, in the order of the text. It
does not make sure that it holds a value then: a declaration may be without one, it may stand in a
block that does not run, and its value may use the variable itself, which is there already.

If none of this is so (`Stmt.initializes`), all variables that the check knows at a statement hold
values when a run comes there (`Block.holds_exec`), and no run ends for want of a value
(`runText_ne_uninitialized`).
-/

namespace MiniPL

variable {α : Type} {σ : Store VarType}

/-- Whether a statement declares nothing, or one variable with a value that does not need that
    variable. -/
def Stmt.initializes : Stmt α → Bool
  | .declare _ x _ (some e) => x ∉ e.names
  | s => s.declarations.isEmpty

theorem Stmt.initializes_cases {s : Stmt α} (h : s.initializes) :
    s.declarations = [] ∨ ∃ p x ty e, s = .declare p x ty (some e) ∧ x ∉ e.names := by
  rw [initializes.eq_def] at h
  split at h
  · exact .inr ⟨_, _, _, _, rfl, of_decide_eq_true h⟩
  · exact .inl (List.isEmpty_iff.1 h)

/-- The variables hold values. -/
def Store.Holds (X : List String) (σ : Store VarType) : Prop := ∀ x ∈ X, σ.value? x ≠ none

namespace Store.Holds

variable {X : List String}

theorem modify (h : σ.Holds X) (x : String) (v : Value) :
    (σ.modify x fun c => { c with value := some v }).Holds X := by
  intro y hy
  have hvalue := h y hy
  rw [value?, find?_modify]
  rw [value?] at hvalue
  cases hc : σ.find? y with
  | none => exact absurd (by rw [hc]; rfl) hvalue
  | some c =>
    rw [hc] at hvalue
    split
    · exact Option.some_ne_none v
    · exact hvalue

/-- A variable that is declared with a value holds one as well. -/
theorem declare (h : σ.Holds X) (x : String) (ty : VarType) (v : Value) :
    (σ.declare x ty (some v)).Holds (X ++ [x]) := by
  intro y hy
  rw [value?, find?_declare]
  split
  · exact Option.some_ne_none v
  · next hne =>
    have hyX : y ∈ X := (List.mem_append.1 hy).resolve_right fun hmem =>
      hne (List.mem_singleton.1 hmem)
    exact h y hyX

/-- If nothing is declared, variables go on holding values, and no others are needed. -/
theorem stable {M : List Mention} (hX : M.map Mention.name ⊆ X)
    (hM : M.filterMap Mention.declaration? = []) : Stable M [] (Holds X) where
  declare hx _ := by
    have hnone := List.filterMap_eq_nil_iff.1 hM _ hx
    cases hnone
  set _ h v := h.modify _ v
  get hx h hnone := absurd hnone (h _ (hX (List.mem_map_of_mem (f := Mention.name) hx)))

end Store.Holds

theorem Stmt.names_extend {s : Stmt α} (h : s.faults σ = []) :
    (s.extend σ).names = σ.names ++ s.declarations.map Prod.fst := by
  rw [Store.names, entries_extend h, List.map_append, Store.uninitialized, List.map_map]
  rfl

/-- All names in a statement without faults were there before, or are declared in it. -/
theorem Stmt.names_subset {s : Stmt α} (h : s.faults σ = []) :
    s.names ⊆ σ.names ++ s.declarations.map Prod.fst := by
  have hs : Block.faults σ [s] = [] := by rw [Block.faults, h, Block.faults]; rfl
  rw [← s.names_extend h]
  exact List.Subset.trans (List.subset_append_left _ _) (Block.names_subset hs)

/-- If the run goes on after the result, the variables hold values; if not, it has not ended for
    want of one. -/
structure Run.Result.Holds (X : List String) (result : Run.Result) : Prop where
  store : result.halt? = none → result.run.store.Holds X
  within : ∀ h ∈ result.halt?, h.Within []

theorem Run.Result.Holds.andThen {X Y : List String} {result : Result} {k : Run → Result}
    (h : result.Holds X) (hk : ∀ r, r.store.Holds X → (k r).Holds Y) :
    (result.andThen k).Holds Y := by
  obtain ⟨r, _ | halt⟩ := result
  · exact hk r (h.store rfl)
  · exact ⟨nofun, h.within⟩

/-- If all variables hold values before a statement, then after it also those that it declares. -/
theorem Stmt.holds_exec {s : Stmt α} (hs : s.initializes) (hf : s.faults σ = []) {r : Run}
    (h : r.store.Holds σ.names) : (s.exec r).Holds (s.extend σ).names := by
  have hnames := s.names_subset hf
  rw [s.names_extend hf]
  obtain hnil | ⟨p, x, ty, e, rfl, hx⟩ := s.initializes_cases hs
  · rw [hnil, List.map_nil, List.append_nil] at hnames ⊢
    have hstable : Store.Stable s.mentions [] (Store.Holds σ.names) :=
      Store.Holds.stable (s.names_mentions ▸ hnames) (s.declarations_mentions.trans hnil)
    have hkeeps := Stmt.keeps_exec hstable s (List.Subset.refl _) h
    exact ⟨fun _ => hkeeps.store, hkeeps.within⟩
  · -- The variable does not hold its value yet when that is found, but is none of its names.
    have he : e.names ⊆ σ.names := by
      intro y hy
      have hmem : y ∈ σ.names ++ [x] := hnames (List.mem_cons_of_mem x hy)
      exact (List.mem_append.1 hmem).resolve_right fun hyx =>
        hx (List.mem_singleton.1 hyx ▸ hy)
    have hvalue : Halt.Bounds [] (e.eval r.store) :=
      e.bounds_eval fun y hy hnone => absurd hnone (h y (he hy))
    change (Run.withValue _ (e.eval r.store) _).Holds _
    cases hv : e.eval r.store with
    | ok v => exact ⟨fun _ => h.declare x _ v, nofun⟩
    | error halt => exact ⟨nofun, fun _ heq => Option.some.inj heq ▸ hvalue halt hv⟩

/-- All variables that the check knows after a block hold values when a run comes to the end of
    it. -/
theorem Block.holds_exec {b : Block α} (hb : ∀ s ∈ b, s.initializes) (hf : Block.faults σ b = [])
    {r : Run} (h : r.store.Holds σ.names) : (Block.exec b r).Holds (Block.extend σ b).names := by
  -- The check and the run go through the statements together.
  induction b generalizing σ r with
  | nil => exact ⟨fun _ => h, nofun⟩
  | cons s rest ih =>
    obtain ⟨hs, hrest⟩ := List.forall_mem_cons.1 hb
    rw [Block.faults, List.append_eq_nil_iff] at hf
    rw [Block.exec_cons]
    exact (Stmt.holds_exec hs hf.1 h).andThen fun _ hr => ih hrest hf.2 hr

/-- If a program passes its check on no variables, and all its declarations stand outside of
    blocks, with values that do not need the variables that are declared, then no run of it, with
    whatever input, ends with the use of a variable without a value. -/
theorem runText_ne_uninitialized {source : String} {program : Block Nat}
    (hp : (parseProgram source).result = .ok program)
    (h : (checkText .empty source).failure? = none) (hb : ∀ s ∈ program, s.initializes)
    (lines : List (Option String)) (x : String) (p : Pos) :
    (runText .empty source lines).failure? ≠
      some (.halted (.fault ⟨.uninitialized x, p⟩)) := by
  have hf := (checkText_failure?_eq_none_iff hp).1 h
  have hstart : (Run.start (Block.extend .empty program) lines).store.Holds
      (Store.empty : Store VarType).names := nofun
  have hresult := Block.holds_exec hb hf hstart
  rw [(shows_runText hp hf lines).failure?]
  intro hfailure
  obtain ⟨halt, hhalt, heq⟩ := Option.map_eq_some_iff.1 hfailure
  cases heq
  have hx : x ∈ [] := hresult.within _ hhalt
  cases hx

/-- A variable that counts and takes input in a block, and a run that fails for another reason. -/
theorem runText_ne_uninitialized_of_loop :
    let source := "var n : int := 1; for n in n .. n do read n; end for; print n / n;"
    let outcome := runText .empty source [some "0"]
    (checkText .empty source).failure? = none ∧
      outcome.failure? = some (.halted (.fault ⟨.divisionByZero, ⟨1, 63⟩⟩)) ∧
      outcome.failure? ≠ some (.halted (.fault ⟨.uninitialized "n", ⟨1, 65⟩⟩)) := by
  intro source outcome
  have h : (checkText .empty source).failure? = none := by decide +kernel
  obtain ⟨program, hp, hb⟩ := exists_eq_ok_of_toOption (x := (parseProgram source).result)
    (f := fun b => b.all Stmt.initializes) (b := true) (by decide +kernel)
  refine ⟨h, by decide +kernel, ?_⟩
  exact runText_ne_uninitialized hp h (List.all_eq_true.1 hb) _ "n" ⟨1, 65⟩

/-- A value that needs its own variable passes the check. -/
example :
    let source := "var n : int := n;"
    (checkText .empty source).failure? = none ∧ (runText .empty source []).failure? =
      some (.halted (.fault ⟨.uninitialized "n", ⟨1, 16⟩⟩)) := by
  decide +kernel

end MiniPL
