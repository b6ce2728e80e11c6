import MiniPL.Program
import MiniPL.Proofs.Typing.Whole

/-!
# Undeclared names

A name that is not declared leaves the type of an expression open only if nothing else decides it
(`Expr.Open`, `Expr.ty?_eq_none_iff`). Then all checks of the expression are given up, and the
faults in it are the undeclared names (`Expr.Open.quiet`). But a negation or a comparison is a truth
value whatever it is made of, and what another operator makes has the type of either operand that
has one. So a check around an undeclared name may still find a mismatch.

What it finds then is not a matter of the name. Whatever types the undeclared names are given, an
expression keeps the type that it has without them (`Expr.HasType.eq_of_mem_ty?`). If a program is
well typed with some types for its undeclared names, the check finds no mismatch in it, but only
the names (`Block.Typed.ofNames_faults`).
-/

namespace MiniPL

/-- Whether a fault is one of types, not of names. -/
def SemanticFault.isMismatch : SemanticFault → Bool
  | undeclared _ => false
  | redeclared _ => false
  | mismatch .. => true
  | notAccepted .. => true

variable {α : Type} {σ : Store VarType} {Γ : TypeEnv}

mutual

/-- The type of the operand is taken from undeclared names alone. -/
inductive Operand.Open (σ : Store VarType) : Operand α → Prop
  | var {p : Pos} {x : String} : σ.ty? x = none → Operand.Open σ (.var p x)
  | group {p : Pos} {e : Expr α} : Expr.Open σ e → Operand.Open σ (.group p e)

/-- The type of the expression is taken from undeclared names alone. -/
inductive Expr.Open (σ : Store VarType) : Expr α → Prop
  | single {a : α} {o : Operand α} : Operand.Open σ o → Expr.Open σ (.single a o)
  | binary {a : α} {l r : Operand α} {op : BinOp} {p : Pos} :
    op.isComparison = false → Operand.Open σ l → Operand.Open σ r →
      Expr.Open σ (.binary a l op p r)

end

theorem BinOp.ty?_eq_none_iff {op : BinOp} {left? right? : Option VarType} :
    op.ty? left? right? = none ↔ op.isComparison = false ∧ left? = none ∧ right? = none := by
  unfold ty?
  split
  · next h => simp [h]
  · next h => simp [h, Option.or_eq_none_iff]

mutual

theorem Operand.ty?_eq_none_iff : (o : Operand α) → (o.ty? σ = none ↔ o.Open σ)
  | .literal .. => ⟨nofun, nofun⟩
  | .var .. => ⟨.var, fun | .var h => h⟩
  | .group _ e => e.ty?_eq_none_iff.trans ⟨.group, fun | .group h => h⟩

/-- An expression has no type if and only if its type is taken from undeclared names alone. -/
theorem Expr.ty?_eq_none_iff : (e : Expr α) → (e.ty? σ = none ↔ e.Open σ)
  | .single _ o => o.ty?_eq_none_iff.trans ⟨.single, fun | .single h => h⟩
  | .negation .. => ⟨nofun, nofun⟩
  | .binary _ l op _ r => by
    rw [Expr.ty?, BinOp.ty?_eq_none_iff, l.ty?_eq_none_iff, r.ty?_eq_none_iff]
    exact ⟨fun ⟨hop, hl, hr⟩ => .binary hop hl hr, fun | .binary hop hl hr => ⟨hop, hl, hr⟩⟩

end

/-! ## Checks that are given up -/

theorem VarType.expect_none (expected? : Option VarType) (p : Pos) :
    expect expected? none p = [] := by
  cases expected? <;> rfl

theorem BinOp.faults_none_right (op : BinOp) (p q : Pos) (left? : Option VarType) :
    op.faults p left? none q = [] := by
  cases left? <;> rfl

/-- There are faults, and each of them is a name that is not declared. -/
structure SemanticFault.OfUndeclared (σ : Store VarType) (fs : List (Located SemanticFault)) :
    Prop where
  ne_nil : fs ≠ []
  undeclared : ∀ f ∈ fs, ∃ x, f.thing = .undeclared x ∧ σ.ty? x = none

theorem SemanticFault.OfUndeclared.append {fs gs : List (Located SemanticFault)}
    (hf : OfUndeclared σ fs) (hg : OfUndeclared σ gs) : OfUndeclared σ (fs ++ gs) where
  ne_nil := List.append_ne_nil_of_left_ne_nil hf.ne_nil gs
  undeclared := List.forall_mem_append.2 ⟨hf.undeclared, hg.undeclared⟩

theorem Store.ofUndeclared_require {x : String} (h : σ.ty? x = none) (p : Pos) :
    SemanticFault.OfUndeclared σ (σ.require x p) := by
  rw [require, contains_eq_false_iff.2 h, if_neg Bool.false_ne_true]
  exact ⟨List.cons_ne_nil _ _, List.forall_mem_singleton.2 ⟨x, rfl, h⟩⟩

mutual

theorem Operand.Open.ofUndeclared_faults {o : Operand α} :
    o.Open σ → SemanticFault.OfUndeclared σ (o.faults σ)
  | .var h => Store.ofUndeclared_require h _
  | .group h => h.ofUndeclared_faults

theorem Expr.Open.ofUndeclared_faults {e : Expr α} :
    e.Open σ → SemanticFault.OfUndeclared σ (e.faults σ)
  | .single h => h.ofUndeclared_faults
  | .binary _ hl hr => by
    rw [Expr.faults, (Operand.ty?_eq_none_iff _).2 hr, BinOp.faults_none_right, List.append_nil]
    exact hl.ofUndeclared_faults.append hr.ofUndeclared_faults

end

/-- Undeclared names are all that is wrong with an expression, and with whatever it stands in: it
    passes a check for any type, and goes with any operand and with any operator. -/
structure Expr.Quiet (σ : Store VarType) (e : Expr α) : Prop where
  faults : SemanticFault.OfUndeclared σ (e.faults σ)
  expect : ∀ expected? p, VarType.expect expected? (e.ty? σ) p = []
  left : ∀ (op : BinOp) p right? q, op.faults p (e.ty? σ) right? q = []
  right : ∀ (op : BinOp) p left? q, op.faults p left? (e.ty? σ) q = []

theorem Expr.Open.quiet {e : Expr α} (h : e.Open σ) : e.Quiet σ := by
  have hty : e.ty? σ = none := e.ty?_eq_none_iff.2 h
  refine ⟨h.ofUndeclared_faults, ?_, ?_, ?_⟩
  all_goals rw [hty]
  · exact VarType.expect_none
  · exact fun _ _ _ _ => rfl
  · exact fun op p left? q => op.faults_none_right p q left?

/-! ## Types for the undeclared names -/

/-- If both operands have the type `ty` unless they have none, so has what an operator makes. -/
theorem BinOp.eq_result_of_mem_ty? {op : BinOp} {left? right? : Option VarType} {ty t : VarType}
    (hl : ∀ t ∈ left?, t = ty) (hr : ∀ t ∈ right?, t = ty) (ht : t ∈ op.ty? left? right?) :
    t = op.result ty := by
  unfold ty? at ht
  unfold result
  split at ht
  · next h => rw [if_pos h, Option.some.inj ht]
  · next h =>
    rw [if_neg h]
    cases left? with
    | some left => exact hl t ht
    | none => exact hr t ht

mutual

theorem Operand.HasType.eq_of_mem_ty? (hΓ : Γ.Extends σ.ty?) {o : Operand α} {ty : VarType} :
    o.HasType Γ ty → ∀ t ∈ o.ty? σ, t = ty
  | .literal .., _, ht => (Option.some.inj ht).symm
  | .var h, _, ht => Option.some.inj ((hΓ ht).symm.trans h)
  | .group h, t, ht => h.eq_of_mem_ty? hΓ t ht

/-- An expression keeps its type if undeclared names get types. -/
theorem Expr.HasType.eq_of_mem_ty? (hΓ : Γ.Extends σ.ty?) {e : Expr α} {ty : VarType} :
    e.HasType Γ ty → ∀ t ∈ e.ty? σ, t = ty
  | .single h, t, ht => h.eq_of_mem_ty? hΓ t ht
  | .negation _, _, ht => (Option.some.inj ht).symm
  | .binary _ hl hr, _, ht =>
    BinOp.eq_result_of_mem_ty? (hl.eq_of_mem_ty? hΓ) (hr.eq_of_mem_ty? hΓ) ht

end

/-- A check of two types finds nothing if both are `ty` unless there is none. -/
theorem VarType.expect_eq_nil {expected? got? : Option VarType} {ty : VarType} (p : Pos)
    (he : ∀ t ∈ expected?, t = ty) (hg : ∀ t ∈ got?, t = ty) : expect expected? got? p = [] := by
  unfold expect
  split
  · next expected got => rw [he expected rfl, hg got rfl, if_pos rfl]
  · rfl

theorem BinOp.faults_eq_nil {op : BinOp} {left? right? : Option VarType} {ty : VarType} (p q : Pos)
    (hop : ty ∈ op.accepts) (hl : ∀ t ∈ left?, t = ty) (hr : ∀ t ∈ right?, t = ty) :
    op.faults p left? right? q = [] := by
  unfold faults
  split
  · next left right => rw [hl left rfl, hr right rfl, if_neg (not_not_intro rfl), if_pos hop]
  · rfl

/-- An expression that has the type `ty` when undeclared names get types passes a check for another
    type only if its type is taken from such names alone. -/
theorem Expr.HasType.expect_eq_nil_iff (hΓ : Γ.Extends σ.ty?) {e : Expr α} {expected ty : VarType}
    (h : e.HasType Γ ty) (p : Pos) :
    VarType.expect (some expected) (e.ty? σ) p = [] ↔ e.Open σ ∨ expected = ty := by
  rw [← e.ty?_eq_none_iff]
  cases ht : e.ty? σ with
  | none => exact ⟨fun _ => .inl rfl, fun _ => rfl⟩
  | some t =>
    obtain rfl := h.eq_of_mem_ty? hΓ t ht
    rw [VarType.expect_some_eq_nil_iff]
    exact ⟨.inr, fun h => h.resolve_left nofun⟩

theorem Expr.HasType.expect_eq_nil (hΓ : Γ.Extends σ.ty?) {e : Expr α} {ty : VarType}
    (h : e.HasType Γ ty) (p : Pos) : VarType.expect (some ty) (e.ty? σ) p = [] :=
  (h.expect_eq_nil_iff hΓ p).2 (.inr rfl)

/-! ## Faults -/

/-- All faults are those of names. -/
def SemanticFault.OfNames (fs : List (Located SemanticFault)) : Prop :=
  ∀ f ∈ fs, f.thing.isMismatch = false

namespace SemanticFault

theorem ofNames_nil : OfNames [] := nofun

theorem OfNames.append {fs gs : List (Located SemanticFault)} (hf : OfNames fs)
    (hg : OfNames gs) : OfNames (fs ++ gs) :=
  List.forall_mem_append.2 ⟨hf, hg⟩

theorem ofNames_require (σ : Store VarType) (x : String) (p : Pos) : OfNames (σ.require x p) := by
  unfold Store.require
  split
  · exact ofNames_nil
  · exact List.forall_mem_singleton.2 rfl

end SemanticFault

open SemanticFault

mutual

theorem Operand.HasType.ofNames_faults (hΓ : Γ.Extends σ.ty?) {o : Operand α} {ty : VarType} :
    o.HasType Γ ty → OfNames (o.faults σ)
  | .literal .. => ofNames_nil
  | .var _ => ofNames_require _ _ _
  | .group h => h.ofNames_faults hΓ

theorem Expr.HasType.ofNames_faults (hΓ : Γ.Extends σ.ty?) {e : Expr α} {ty : VarType} :
    e.HasType Γ ty → OfNames (e.faults σ)
  | .single h => h.ofNames_faults hΓ
  | .negation h => by
    rw [Expr.faults, VarType.expect_eq_nil _ (fun _ ht => (Option.some.inj ht).symm)
      (h.eq_of_mem_ty? hΓ), List.append_nil]
    exact h.ofNames_faults hΓ
  | .binary hop hl hr => by
    rw [Expr.faults, BinOp.faults_eq_nil _ _ hop (hl.eq_of_mem_ty? hΓ) (hr.eq_of_mem_ty? hΓ),
      List.append_nil]
    exact (hl.ofNames_faults hΓ).append (hr.ofNames_faults hΓ)

end

mutual

theorem Stmt.Typed.ofNames_faults {σ : Store VarType} {s : Stmt α}
    (hΓ : Γ.Extends (s.extend σ).ty?) (h : s.Typed Γ) : OfNames (s.faults σ) := by
  have hσ : Γ.Extends σ.ty? := hΓ.trans (s.extends_extend σ)
  cases s with
  | declare p x ty init =>
    have hname : OfNames (if σ.contains x then [⟨.redeclared x, p⟩] else []) := by
      split
      · exact List.forall_mem_singleton.2 rfl
      · exact ofNames_nil
    cases init with
    | none => exact hname
    | some e =>
      -- The initial value is checked with its own name declared.
      have hΓ : Γ.Extends (σ.declareNew x ty).ty? := hΓ
      have hvalue : OfNames (e.faults (σ.declareNew x ty)) := h.2.ofNames_faults hΓ
      have hexpect :
          OfNames (VarType.expect (some (.known ty)) (e.ty? (σ.declareNew x ty)) e.pos) := by
        rw [h.2.expect_eq_nil hΓ]
        exact ofNames_nil
      exact (hname.append hvalue).append hexpect
  | assign p x e =>
    obtain ⟨ty, hx, he⟩ := h
    have hty : ∀ t ∈ σ.ty? x, t = ty := fun t ht => Option.some.inj ((hσ ht).symm.trans hx)
    rw [Stmt.faults, VarType.expect_eq_nil _ hty (he.eq_of_mem_ty? hσ), List.append_nil]
    exact (ofNames_require _ _ _).append (he.ofNames_faults hσ)
  | forLoop p x a b body =>
    obtain ⟨hx, ha, hb, hbody⟩ := h
    have hty : ∀ t ∈ σ.ty? x, t = .int := fun t ht => Option.some.inj ((hσ ht).symm.trans hx)
    rw [Stmt.faults, VarType.expect_eq_nil _ (fun _ ht => (Option.some.inj ht).symm) hty,
      ha.expect_eq_nil hσ, hb.expect_eq_nil hσ]
    simp only [List.append_nil]
    exact (((ofNames_require _ _ _).append (ha.ofNames_faults hσ)).append
      (hb.ofNames_faults hσ)).append (Block.Typed.ofNames_faults hΓ hbody)
  | ifThen p c body =>
    obtain ⟨hc, hbody⟩ := h
    rw [Stmt.faults, hc.expect_eq_nil hσ, List.append_nil]
    exact (hc.ofNames_faults hσ).append (Block.Typed.ofNames_faults hΓ hbody)
  | ifElse p c body otherwise =>
    obtain ⟨hc, hbody, hotherwise⟩ := h
    rw [Stmt.faults, hc.expect_eq_nil hσ, List.append_nil]
    -- The first block is checked without the declarations of the second one.
    have hfirst := Block.Typed.ofNames_faults (hΓ.trans (Block.extends_extend _ otherwise)) hbody
    exact ((hc.ofNames_faults hσ).append hfirst).append
      (Block.Typed.ofNames_faults hΓ hotherwise)
  | print p e =>
    obtain ⟨ty, he⟩ := h
    exact he.ofNames_faults hσ
  | read p x => exact ofNames_require _ _ _
  | assert p c =>
    rw [Stmt.faults, Expr.HasType.expect_eq_nil hσ h, List.append_nil]
    exact Expr.HasType.ofNames_faults hσ h
termination_by structural s

/-- A block that is typed when undeclared names get types has no faults but those of names. -/
theorem Block.Typed.ofNames_faults {σ : Store VarType} {b : Block α}
    (hΓ : Γ.Extends (Block.extend σ b).ty?) (h : Block.Typed Γ b) :
    OfNames (Block.faults σ b) := by
  cases b with
  | nil => exact ofNames_nil
  | cons s rest =>
    exact (Stmt.Typed.ofNames_faults (hΓ.trans (Block.extends_extend _ rest)) h.1).append
      (Block.Typed.ofNames_faults hΓ h.2)
termination_by structural b

end

/-- An expression has no type if and only if its type is taken from undeclared names alone. Then
    these names are all that is wrong with it and with what it stands in. If a program is well typed
    with some types for the names that are not declared, whatever is wrong with it without them is
    a matter of names. -/
theorem faults_around_undeclared (σ : Store VarType) :
    (∀ e : Expr α, (e.ty? σ = none ↔ e.Open σ) ∧ (e.Open σ → e.Quiet σ)) ∧
    ∀ (b : Block α) (Γ : TypeEnv), Γ.Extends (Block.extend σ b).ty? → Block.Typed Γ b →
      ∀ f ∈ Block.faults σ b, f.thing.isMismatch = false :=
  ⟨fun e => ⟨e.ty?_eq_none_iff, Expr.Open.quiet⟩, fun _ _ => Block.Typed.ofNames_faults⟩

/-- With a number for `u`, `var n : int := u + 1; print u < n;` is well typed. -/
theorem faults_around_undeclared_sum_less :
    let b : Block Unit :=
      [.declare ⟨1, 1⟩ "n" .int (some (.binary () (.var ⟨1, 16⟩ "u") .add ⟨1, 18⟩
          (.literal ⟨1, 20⟩ (.int "1")))),
        .print ⟨1, 23⟩ (.binary () (.var ⟨1, 29⟩ "u") .lt ⟨1, 31⟩ (.var ⟨1, 33⟩ "n"))]
    Block.faults .empty b ≠ [] ∧ ∀ f ∈ Block.faults .empty b, f.thing.isMismatch = false := by
  intro b
  let Γ : TypeEnv := fun _ => some .int
  have hΓ : Γ.Extends (Block.extend .empty b).ty? := by
    intro x ty hx
    change ((Store.empty.declare "n" .int none).find? x).map Cell.ty = some ty at hx
    rw [Store.find?_declare] at hx
    split at hx
    · exact hx
    · cases hx
  have hb : Block.Typed Γ b :=
    ⟨⟨rfl, .binary (by decide) (.var rfl) (.literal ..)⟩,
      ⟨_, .binary (by decide) (.var rfl) (.var rfl)⟩, trivial⟩
  exact ⟨by decide +kernel, (faults_around_undeclared .empty).2 b Γ hΓ hb⟩

/-- The sum of a number and a name that is not declared is a number, so the check of the initial
    value finds a mismatch next to the name. -/
theorem undeclared_operand_mismatch :
    (checkText .empty "var s : string := 1 + u;").failure? =
      some (.semantic [⟨.undeclared "u", ⟨1, 23⟩⟩, ⟨.mismatch .string .int, ⟨1, 19⟩⟩]) := by
  decide +kernel

end MiniPL
