import MiniPL.Proofs.Syntax.Parts
import MiniPL.Proofs.Typing.Rules

/-!
# Types of a whole program

A program is checked in the order of its text, against the variables declared so far.
Once it has passed, all of it is typed in one environment, that of the variables after
it (`Block.Typed`, `Block.typed_of_faults_eq_nil`): no declaration changes the type of
a variable that is there already (`Block.extends_extend`). In what order the parts of
the program run no longer matters then.
-/

namespace MiniPL

variable {α : Type}

mutual

/-- Whether a statement is typed in an environment that has its own declarations too. -/
def Stmt.Typed (Γ : TypeEnv) : Stmt α → Prop
  | .declare _ x ty none => Γ x = some (.known ty)
  | .declare _ x ty (some e) => Γ x = some (.known ty) ∧ e.HasType Γ (.known ty)
  | .assign _ x e => ∃ ty, Γ x = some ty ∧ e.HasType Γ ty
  | .forLoop _ x a b body =>
    Γ x = some .int ∧ a.HasType Γ .int ∧ b.HasType Γ .int ∧ Block.Typed Γ body
  | .ifThen _ c body => c.HasType Γ .bool ∧ Block.Typed Γ body
  | .ifElse _ c body otherwise =>
    c.HasType Γ .bool ∧ Block.Typed Γ body ∧ Block.Typed Γ otherwise
  | .print _ e => ∃ ty, e.HasType Γ ty
  | .read _ x => ∃ ty, Γ x = some ty
  | .assert _ c => c.HasType Γ .bool

/-- Whether a block is typed in an environment that has its declarations too. -/
def Block.Typed (Γ : TypeEnv) : Block α → Prop
  | [] => True
  | s :: rest => s.Typed Γ ∧ Block.Typed Γ rest

end

theorem Block.typed_iff {Γ : TypeEnv} {b : Block α} : Block.Typed Γ b ↔ ∀ s ∈ b, s.Typed Γ := by
  induction b with
  | nil => simp [Block.Typed]
  | cons s rest ih => rw [Block.Typed, ih, List.forall_mem_cons]

/-! ## The names that are typed -/

mutual

theorem Operand.HasType.exists_of_mem_names {Γ : TypeEnv} {o : Operand α} {ty : VarType}
    {x : String} (hx : x ∈ o.names) : o.HasType Γ ty → ∃ t, Γ x = some t
  | .literal .. => nomatch hx
  | .var h => by
    obtain rfl := List.mem_singleton.1 hx
    exact ⟨_, h⟩
  | .group h => h.exists_of_mem_names hx

theorem Expr.HasType.exists_of_mem_names {Γ : TypeEnv} {e : Expr α} {ty : VarType} {x : String}
    (hx : x ∈ e.names) : e.HasType Γ ty → ∃ t, Γ x = some t
  | .single h => h.exists_of_mem_names hx
  | .negation h => h.exists_of_mem_names hx
  | .binary _ hl hr => by
    rcases List.mem_append.1 hx with hx | hx
    · exact hl.exists_of_mem_names hx
    · exact hr.exists_of_mem_names hx

end

mutual

theorem Stmt.Typed.exists_of_mem_names {Γ : TypeEnv} {s : Stmt α} {x : String}
    (h : s.Typed Γ) (hx : x ∈ s.names) : ∃ t, Γ x = some t := by
  cases s with
  | declare p y ty init =>
    cases init with
    | none =>
      obtain rfl := List.mem_singleton.1 hx
      exact ⟨_, h⟩
    | some e =>
      rcases List.mem_cons.1 hx with rfl | hx
      · exact ⟨_, h.1⟩
      · exact h.2.exists_of_mem_names hx
  | assign p y e =>
    obtain ⟨ty, hy, he⟩ := h
    rcases List.mem_cons.1 hx with rfl | hx
    · exact ⟨_, hy⟩
    · exact he.exists_of_mem_names hx
  | forLoop p y a b body =>
    obtain ⟨hy, ha, hb, hbody⟩ := h
    rw [Stmt.names, List.mem_cons, List.mem_append, List.mem_append] at hx
    rcases hx with rfl | (hx | hx) | hx
    · exact ⟨_, hy⟩
    · exact ha.exists_of_mem_names hx
    · exact hb.exists_of_mem_names hx
    · exact Block.Typed.exists_of_mem_names hbody hx
  | ifThen p c body =>
    rcases List.mem_append.1 hx with hx | hx
    · exact h.1.exists_of_mem_names hx
    · exact Block.Typed.exists_of_mem_names h.2 hx
  | ifElse p c body otherwise =>
    obtain ⟨hc, hbody, hotherwise⟩ := h
    rw [Stmt.names, List.mem_append, List.mem_append] at hx
    rcases hx with (hx | hx) | hx
    · exact hc.exists_of_mem_names hx
    · exact Block.Typed.exists_of_mem_names hbody hx
    · exact Block.Typed.exists_of_mem_names hotherwise hx
  | print p e => exact h.elim fun _ he => he.exists_of_mem_names hx
  | read p y =>
    obtain rfl := List.mem_singleton.1 hx
    exact h
  | assert p c => exact Expr.HasType.exists_of_mem_names hx h
termination_by structural s

/-- All names in a block that is typed have types. -/
theorem Block.Typed.exists_of_mem_names {Γ : TypeEnv} {b : Block α} {x : String}
    (h : Block.Typed Γ b) (hx : x ∈ Block.names b) : ∃ t, Γ x = some t := by
  cases b with
  | nil => cases hx
  | cons s rest =>
    rcases List.mem_append.1 hx with hx | hx
    · exact Stmt.Typed.exists_of_mem_names h.1 hx
    · exact Block.Typed.exists_of_mem_names h.2 hx
termination_by structural b

end

/-! ## The variables after a statement -/

section Declared

variable {σ : Store VarType} {x : String} {ty : Ty}

/-- The store in which `x` is declared unless it is there. -/
abbrev Store.declareNew (σ : Store VarType) (x : String) (ty : Ty) : Store VarType :=
  if σ.contains x then σ else σ.declare x (.known ty) none

theorem Store.extends_declareNew (σ : Store VarType) (x : String) (ty : Ty) :
    TypeEnv.Extends (σ.declareNew x ty).ty? σ.ty? := by
  intro y t hy
  unfold declareNew
  split
  · exact hy
  · next hx =>
    -- A new declaration is that of another variable.
    have hyx : y ≠ x := by
      rintro rfl
      rw [contains, Bool.not_eq_true, Option.isSome_eq_false_iff, Option.isNone_iff_eq_none] at hx
      simp [ty?, hx] at hy
    rwa [ty?, find?_declare, if_neg hyx]

theorem Store.ty?_declareNew (hx : σ.contains x = false) :
    (σ.declareNew x ty).ty? x = some (.known ty) := by
  simp [declareNew, hx, ty?, find?_declare]

end Declared

mutual

theorem Stmt.extends_extend (σ : Store VarType) :
    (s : Stmt α) → TypeEnv.Extends (s.extend σ).ty? σ.ty?
  | .declare _ x ty _ => σ.extends_declareNew x ty
  | .assign .. => .refl _
  | .forLoop _ _ _ _ body => Block.extends_extend σ body
  | .ifThen _ _ body => Block.extends_extend σ body
  | .ifElse _ _ body otherwise =>
    (Block.extends_extend (Block.extend σ body) otherwise).trans (Block.extends_extend σ body)
  | .print .. => .refl _
  | .read .. => .refl _
  | .assert .. => .refl _

/-- What is declared already keeps its type. -/
theorem Block.extends_extend (σ : Store VarType) :
    (b : Block α) → TypeEnv.Extends (Block.extend σ b).ty? σ.ty?
  | [] => .refl _
  | s :: rest => (Block.extends_extend (s.extend σ) rest).trans (s.extends_extend σ)

end

/-! ## From the order of the text to one environment -/

/-- An expression that passes a check for the type `ty` has that type. -/
theorem Expr.hasType_of_faults {σ : Store VarType} {e : Expr α} {ty : VarType} {p : Pos}
    (hf : e.faults σ = []) (he : VarType.expect (some ty) (e.ty? σ) p = []) :
    e.HasType σ.ty? ty := by
  obtain ⟨t, ht⟩ := Expr.faults_eq_nil_iff.1 hf
  rw [ht.ty?_eq, VarType.expect_some_eq_nil_iff] at he
  exact he ▸ ht

mutual

theorem Stmt.typed_of_faults_eq_nil {σ : Store VarType} {Δ : TypeEnv} {s : Stmt α}
    (h : s.faults σ = []) (hΔ : Δ.Extends (s.extend σ).ty?) : s.Typed Δ := by
  -- What was declared before the statement is in `Δ` too.
  have hσ : Δ.Extends σ.ty? := hΔ.trans (s.extends_extend σ)
  cases s with
  | declare p x ty init =>
    cases init with
    | none =>
      have hx : σ.contains x = false := by simpa [Stmt.faults] using h
      exact hΔ (Store.ty?_declareNew hx)
    | some e =>
      simp only [Stmt.faults, List.append_eq_nil_iff] at h
      obtain ⟨⟨hx, hf⟩, he⟩ := h
      have hx : σ.contains x = false := by simpa using hx
      -- The initial value is checked after the declaration, so it is typed there.
      exact ⟨hΔ (Store.ty?_declareNew hx), (Expr.hasType_of_faults hf he).extends hΔ⟩
  | assign p x e =>
    simp only [Stmt.faults, List.append_eq_nil_iff, Store.require_eq_nil_iff] at h
    obtain ⟨⟨⟨ty, hx⟩, hf⟩, he⟩ := h
    rw [hx] at he
    exact ⟨ty, hσ hx, (Expr.hasType_of_faults hf he).extends hσ⟩
  | forLoop p x a b body =>
    simp only [Stmt.faults, List.append_eq_nil_iff, Store.require_eq_nil_iff] at h
    obtain ⟨⟨⟨⟨⟨⟨⟨ty, hx⟩, hty⟩, hfa⟩, hfb⟩, ha⟩, hb⟩, hbody⟩ := h
    rw [hx, VarType.expect_some_eq_nil_iff] at hty
    subst hty
    exact ⟨hσ hx, (Expr.hasType_of_faults hfa ha).extends hσ,
      (Expr.hasType_of_faults hfb hb).extends hσ, Block.typed_of_faults_eq_nil hbody hΔ⟩
  | ifThen p c body =>
    simp only [Stmt.faults, List.append_eq_nil_iff] at h
    obtain ⟨⟨hf, hc⟩, hbody⟩ := h
    exact ⟨(Expr.hasType_of_faults hf hc).extends hσ, Block.typed_of_faults_eq_nil hbody hΔ⟩
  | ifElse p c body otherwise =>
    simp only [Stmt.faults, List.append_eq_nil_iff] at h
    obtain ⟨⟨⟨hf, hc⟩, hbody⟩, hotherwise⟩ := h
    -- The first block is checked without the declarations of the second one.
    exact ⟨(Expr.hasType_of_faults hf hc).extends hσ,
      Block.typed_of_faults_eq_nil hbody (hΔ.trans (Block.extends_extend _ otherwise)),
      Block.typed_of_faults_eq_nil hotherwise hΔ⟩
  | print p e =>
    obtain ⟨ty, hty⟩ := Expr.faults_eq_nil_iff.1 h
    exact ⟨ty, hty.extends hσ⟩
  | read p x =>
    obtain ⟨ty, hx⟩ := Store.require_eq_nil_iff.1 h
    exact ⟨ty, hσ hx⟩
  | assert p c =>
    simp only [Stmt.faults, List.append_eq_nil_iff] at h
    exact (Expr.hasType_of_faults h.1 h.2).extends hσ
termination_by structural s

/-- A block without faults is typed in the environment of the variables after it. -/
theorem Block.typed_of_faults_eq_nil {σ : Store VarType} {Δ : TypeEnv} {b : Block α}
    (h : Block.faults σ b = []) (hΔ : Δ.Extends (Block.extend σ b).ty?) : Block.Typed Δ b := by
  cases b with
  | nil => exact trivial
  | cons s rest =>
    rw [Block.faults, List.append_eq_nil_iff] at h
    exact ⟨Stmt.typed_of_faults_eq_nil h.1 (hΔ.trans (Block.extends_extend _ rest)),
      Block.typed_of_faults_eq_nil h.2 hΔ⟩
termination_by structural b

end

end MiniPL
