import MiniPL.Typing

/-!
# Typing rules

The types of expressions, as rules: an expression has a type in an environment, the
types of the variables that there are (`TypeEnv`). A variable has the type that it was
declared with, a negation takes a truth value, and an operator takes two operands of
one type that it accepts.

The rules say nothing of faults. That there are none is the same as that there is a
type (`Expr.faults_eq_nil_iff`), and then it is the type that is recorded
(`Expr.HasType.ty?_eq`). More variables change no types (`Expr.HasType.extends`).
-/

namespace MiniPL

/-- The types of the variables that there are. -/
abbrev TypeEnv := String → Option VarType

/-- Whether all variables of `Γ` have the same types in `Δ`. -/
def TypeEnv.Extends (Δ Γ : TypeEnv) : Prop :=
  ∀ ⦃x : String⦄ ⦃ty : VarType⦄, Γ x = some ty → Δ x = some ty

theorem TypeEnv.Extends.refl (Γ : TypeEnv) : Γ.Extends Γ := fun _ _ h => h

theorem TypeEnv.Extends.trans {Γ Δ Θ : TypeEnv} (h₁ : Θ.Extends Δ) (h₂ : Δ.Extends Γ) :
    Θ.Extends Γ :=
  fun _ _ h => h₁ (h₂ h)

/-- The type of what an operator makes of two operands of type `ty`. -/
def BinOp.result (op : BinOp) (ty : VarType) : VarType :=
  if op.isComparison then .bool else ty

theorem BinOp.ty?_some (op : BinOp) (ty : VarType) :
    op.ty? (some ty) (some ty) = some (op.result ty) := by
  unfold ty? result
  split <;> rfl

variable {α : Type}

mutual

/-- The operand has the type in the environment. -/
inductive Operand.HasType (Γ : TypeEnv) : Operand α → VarType → Prop
  | literal (p : Pos) (l : Literal) : Operand.HasType Γ (.literal p l) l.ty
  | var {p : Pos} {x : String} {ty : VarType} : Γ x = some ty → Operand.HasType Γ (.var p x) ty
  | group {p : Pos} {e : Expr α} {ty : VarType} :
    Expr.HasType Γ e ty → Operand.HasType Γ (.group p e) ty

/-- The expression has the type in the environment. -/
inductive Expr.HasType (Γ : TypeEnv) : Expr α → VarType → Prop
  | single {a : α} {o : Operand α} {ty : VarType} :
    Operand.HasType Γ o ty → Expr.HasType Γ (.single a o) ty
  | negation {a : α} {p : Pos} {o : Operand α} :
    Operand.HasType Γ o .bool → Expr.HasType Γ (.negation a p o) .bool
  | binary {a : α} {l r : Operand α} {op : BinOp} {p : Pos} {ty : VarType} :
    ty ∈ op.accepts → Operand.HasType Γ l ty → Operand.HasType Γ r ty →
      Expr.HasType Γ (.binary a l op p r) (op.result ty)

end

mutual

theorem Operand.HasType.extends {Γ Δ : TypeEnv} (hΔ : Δ.Extends Γ) {o : Operand α} {ty : VarType} :
    o.HasType Γ ty → o.HasType Δ ty
  | .literal p l => .literal p l
  | .var h => .var (hΔ h)
  | .group h => .group (h.extends hΔ)

theorem Expr.HasType.extends {Γ Δ : TypeEnv} (hΔ : Δ.Extends Γ) {e : Expr α} {ty : VarType} :
    e.HasType Γ ty → e.HasType Δ ty
  | .single h => .single (h.extends hΔ)
  | .negation h => .negation (h.extends hΔ)
  | .binary hop hl hr => .binary hop (hl.extends hΔ) (hr.extends hΔ)

end

/-! ## The recorded type -/

section Recorded

variable {σ : Store VarType}

mutual

theorem Operand.HasType.ty?_eq {o : Operand α} {ty : VarType} :
    o.HasType σ.ty? ty → o.ty? σ = some ty
  | .literal .. => rfl
  | .var h => h
  | .group h => h.ty?_eq

/-- An expression has the type that is recorded for it. -/
theorem Expr.HasType.ty?_eq {e : Expr α} {ty : VarType} : e.HasType σ.ty? ty → e.ty? σ = some ty
  | .single h => h.ty?_eq
  | .negation _ => rfl
  | .binary _ hl hr => by
    rw [Expr.ty?, hl.ty?_eq, hr.ty?_eq, BinOp.ty?_some]

end

/-! ## Faults -/

theorem VarType.expect_some_eq_nil_iff {expected got : VarType} {p : Pos} :
    VarType.expect (some expected) (some got) p = [] ↔ expected = got := by
  rw [VarType.expect]
  split <;> simp_all

theorem BinOp.faults_some_eq_nil_iff {op : BinOp} {p q : Pos} {left right : VarType} :
    op.faults p (some left) (some right) q = [] ↔ left = right ∧ left ∈ op.accepts := by
  rw [BinOp.faults]
  -- That the types differ is found before it is asked what the operator accepts.
  split
  · simp_all
  · split <;> simp_all

theorem Store.contains_eq_false_iff {x : String} : σ.contains x = false ↔ σ.ty? x = none := by
  rw [contains, ty?, Option.isSome_eq_false_iff, Option.isNone_iff_eq_none, Option.map_eq_none_iff]

theorem Store.require_eq_nil_iff {x : String} {p : Pos} :
    σ.require x p = [] ↔ ∃ ty, σ.ty? x = some ty := by
  rw [require, contains, ty?]
  cases σ.find? x <;> simp

mutual

theorem Operand.HasType.faults_eq_nil {o : Operand α} {ty : VarType} :
    o.HasType σ.ty? ty → o.faults σ = []
  | .literal .. => rfl
  | .var h => Store.require_eq_nil_iff.2 ⟨_, h⟩
  | .group h => h.faults_eq_nil

theorem Expr.HasType.faults_eq_nil {e : Expr α} {ty : VarType} :
    e.HasType σ.ty? ty → e.faults σ = []
  | .single h => h.faults_eq_nil
  | .negation h => by
    rw [Expr.faults, h.faults_eq_nil, h.ty?_eq, List.nil_append, VarType.expect_some_eq_nil_iff]
  | .binary hop hl hr => by
    rw [Expr.faults, hl.faults_eq_nil, hr.faults_eq_nil, hl.ty?_eq, hr.ty?_eq, List.nil_append,
      List.nil_append, BinOp.faults_some_eq_nil_iff]
    exact ⟨rfl, hop⟩

end

mutual

theorem Operand.exists_hasType {o : Operand α} (h : o.faults σ = []) :
    ∃ ty, o.HasType σ.ty? ty := by
  cases o with
  | literal p l => exact ⟨_, .literal p l⟩
  | var p x =>
    obtain ⟨ty, hty⟩ := Store.require_eq_nil_iff.1 h
    exact ⟨ty, .var hty⟩
  | group p e =>
    obtain ⟨ty, hty⟩ := Expr.exists_hasType (e := e) h
    exact ⟨ty, .group hty⟩

theorem Expr.exists_hasType {e : Expr α} (h : e.faults σ = []) : ∃ ty, e.HasType σ.ty? ty := by
  cases e with
  | single a o =>
    obtain ⟨ty, hty⟩ := Operand.exists_hasType (o := o) h
    exact ⟨ty, .single hty⟩
  | negation a p o =>
    rw [Expr.faults, List.append_eq_nil_iff] at h
    obtain ⟨ty, hty⟩ := Operand.exists_hasType h.1
    -- The operand has a type, so the check compares it with `bool`.
    rw [hty.ty?_eq, VarType.expect_some_eq_nil_iff] at h
    obtain ⟨_, rfl⟩ := h
    exact ⟨.bool, .negation hty⟩
  | binary a l op p r =>
    rw [Expr.faults, List.append_eq_nil_iff, List.append_eq_nil_iff] at h
    obtain ⟨⟨hl, hr⟩, hop⟩ := h
    obtain ⟨left, hleft⟩ := Operand.exists_hasType hl
    obtain ⟨right, hright⟩ := Operand.exists_hasType hr
    -- Both operands have types, so the check of the operator is not left out.
    rw [hleft.ty?_eq, hright.ty?_eq, BinOp.faults_some_eq_nil_iff] at hop
    obtain ⟨rfl, hmem⟩ := hop
    exact ⟨op.result left, .binary hmem hleft hright⟩

end

/-- An expression is without faults if and only if it has a type. -/
theorem Expr.faults_eq_nil_iff {e : Expr α} : e.faults σ = [] ↔ ∃ ty, e.HasType σ.ty? ty :=
  ⟨Expr.exists_hasType, fun ⟨_, h⟩ => h.faults_eq_nil⟩

end Recorded

end MiniPL
