import MiniPL.Proofs.Syntax.Parts
import MiniPL.Proofs.Typing.Whole

/-!
# The record of types

A check records the types of all expressions by their labels (`Block.types`), each as it
is where the expression stands. In a program without faults these are the types in the
environment of the variables after the program, or of more (`Block.types_eq`). With faults
or without, there is one entry for each label (`Block.labels_types`). If no label is there
twice, as in a numbered program, the record tells the type of every expression
(`Block.lookup_types`).
-/

namespace MiniPL

variable {α : Type}

/-- An entry of the record, by the types of the variables in `τ`. -/
abbrev Expr.entry (τ : Store VarType) (e : Expr α) : α × Option VarType := (e.label, e.ty? τ)

section Expr

variable {σ τ : Store VarType}

mutual

theorem Operand.HasType.types_eq (hτ : TypeEnv.Extends τ.ty? σ.ty?) {o : Operand α}
    {ty : VarType} : o.HasType σ.ty? ty → o.types σ = o.exprs.map (Expr.entry τ)
  | .literal .. => rfl
  | .var _ => rfl
  | .group h => h.types_eq hτ

theorem Expr.HasType.types_eq (hτ : TypeEnv.Extends τ.ty? σ.ty?) {e : Expr α} {ty : VarType} :
    e.HasType σ.ty? ty → e.types σ = e.exprs.map (Expr.entry τ)
  | .single h => by
    simp [Expr.types, Expr.exprs, h.types_eq hτ, Expr.entry, Expr.label, Expr.ty?, h.ty?_eq,
      (h.extends hτ).ty?_eq]
  | .negation h => by
    simp [Expr.types, Expr.exprs, h.types_eq hτ, Expr.entry, Expr.label, Expr.ty?]
  | .binary _ hl hr => by
    simp [Expr.types, Expr.exprs, hl.types_eq hτ, hr.types_eq hτ, Expr.entry, Expr.label,
      Expr.ty?, hl.ty?_eq, hr.ty?_eq, (hl.extends hτ).ty?_eq, (hr.extends hτ).ty?_eq]

end

theorem Expr.types_eq (hτ : TypeEnv.Extends τ.ty? σ.ty?) {e : Expr α} (h : e.faults σ = []) :
    e.types σ = e.exprs.map (Expr.entry τ) := by
  obtain ⟨ty, hty⟩ := Expr.faults_eq_nil_iff.1 h
  exact hty.types_eq hτ

end Expr

mutual

theorem Stmt.types_eq {σ τ : Store VarType} {s : Stmt α} (h : s.faults σ = [])
    (hτ : TypeEnv.Extends τ.ty? (s.extend σ).ty?) : s.types σ = s.exprs.map (Expr.entry τ) := by
  have hσ : TypeEnv.Extends τ.ty? σ.ty? := hτ.trans (s.extends_extend σ)
  cases s with
  | declare p x ty init =>
    cases init with
    | none => rfl
    | some e =>
      -- The types in the initial value are recorded after the declaration.
      simp only [Stmt.faults, List.append_eq_nil_iff] at h
      exact Expr.types_eq hτ h.1.2
  | assign p x e =>
    simp only [Stmt.faults, List.append_eq_nil_iff] at h
    exact Expr.types_eq hσ h.1.2
  | forLoop p x a b body =>
    simp only [Stmt.faults, List.append_eq_nil_iff] at h
    obtain ⟨⟨⟨⟨⟨_, ha⟩, hb⟩, _⟩, _⟩, hbody⟩ := h
    simp only [Stmt.types, Stmt.exprs, List.map_append, Expr.types_eq hσ ha,
      Expr.types_eq hσ hb, Block.types_eq hbody hτ]
  | ifThen p c body =>
    simp only [Stmt.faults, List.append_eq_nil_iff] at h
    obtain ⟨⟨hc, _⟩, hbody⟩ := h
    simp only [Stmt.types, Stmt.exprs, List.map_append, Expr.types_eq hσ hc,
      Block.types_eq hbody hτ]
  | ifElse p c body otherwise =>
    simp only [Stmt.faults, List.append_eq_nil_iff] at h
    obtain ⟨⟨⟨hc, _⟩, hbody⟩, hotherwise⟩ := h
    simp only [Stmt.types, Stmt.exprs, List.map_append, Expr.types_eq hσ hc,
      Block.types_eq hbody (hτ.trans (Block.extends_extend _ otherwise)),
      Block.types_eq hotherwise hτ]
  | print p e => exact Expr.types_eq hσ h
  | read p x => rfl
  | assert p c =>
    simp only [Stmt.faults, List.append_eq_nil_iff] at h
    exact Expr.types_eq hσ h.1
termination_by structural s

/-- What is recorded for a block without faults are the types in the environment of the
    variables after it, or of more. -/
theorem Block.types_eq {σ τ : Store VarType} {b : Block α} (h : Block.faults σ b = [])
    (hτ : TypeEnv.Extends τ.ty? (Block.extend σ b).ty?) :
    Block.types σ b = (Block.exprs b).map (Expr.entry τ) := by
  cases b with
  | nil => rfl
  | cons s rest =>
    rw [Block.faults, List.append_eq_nil_iff] at h
    rw [Block.types, Block.exprs, List.map_append,
      Stmt.types_eq h.1 (hτ.trans (Block.extends_extend _ rest)), Block.types_eq h.2 hτ]
termination_by structural b

end

/-! ## Labels of a record -/

mutual

theorem Operand.labels_types (σ : Store VarType) :
    (o : Operand α) → (o.types σ).map Prod.fst = o.labels
  | .literal .. => rfl
  | .var .. => rfl
  | .group _ e => e.labels_types σ

theorem Expr.labels_types (σ : Store VarType) :
    (e : Expr α) → (e.types σ).map Prod.fst = e.labels
  | .single _ o => by rw [Expr.types, List.map_append, o.labels_types, Expr.labels]; rfl
  | .negation _ _ o => by rw [Expr.types, List.map_append, o.labels_types, Expr.labels]; rfl
  | .binary _ l _ _ r => by
    rw [Expr.types, List.map_append, List.map_append, l.labels_types, r.labels_types, Expr.labels]
    rfl

end

mutual

theorem Stmt.labels_types (σ : Store VarType) :
    (s : Stmt α) → (s.types σ).map Prod.fst = s.labels
  | .declare _ _ _ none => rfl
  | .declare _ _ _ (some e) => e.labels_types _
  | .assign _ _ e => e.labels_types σ
  | .forLoop _ _ a b body => by
    simp only [Stmt.types, Stmt.labels, List.map_append, a.labels_types, b.labels_types,
      Block.labels_types σ body]
  | .ifThen _ c body => by
    simp only [Stmt.types, Stmt.labels, List.map_append, c.labels_types, Block.labels_types σ body]
  | .ifElse _ c body otherwise => by
    simp only [Stmt.types, Stmt.labels, List.map_append, c.labels_types, Block.labels_types σ body,
      Block.labels_types _ otherwise]
  | .print _ e => e.labels_types σ
  | .read .. => rfl
  | .assert _ c => c.labels_types σ

/-- There is an entry for each label of a block, in order, whether or not there are faults. -/
theorem Block.labels_types (σ : Store VarType) :
    (b : Block α) → (Block.types σ b).map Prod.fst = Block.labels b
  | [] => rfl
  | s :: rest => by
    rw [Block.types, List.map_append, s.labels_types, Block.labels_types _ rest, Block.labels]

end

/-! ## The number of entries -/

theorem Operand.length_types (σ : Store VarType) (o : Operand α) :
    (o.types σ).length = o.exprs.length := by
  simpa using congrArg List.length ((o.labels_types σ).trans o.labels_eq)

theorem Expr.length_types (σ : Store VarType) (e : Expr α) :
    (e.types σ).length = e.exprs.length := by
  simpa using congrArg List.length ((e.labels_types σ).trans e.labels_eq)

theorem Stmt.length_types (σ : Store VarType) (s : Stmt α) :
    (s.types σ).length = s.exprs.length := by
  simpa using congrArg List.length ((s.labels_types σ).trans s.labels_eq)

/-- There is an entry for each expression of a block. -/
theorem Block.length_types (σ : Store VarType) (b : Block α) :
    (Block.types σ b).length = (Block.exprs b).length := by
  simpa using congrArg List.length ((Block.labels_types σ b).trans (Block.labels_eq b))

/-! ## All expressions of a block -/

mutual

theorem Operand.HasType.of_mem_exprs {Γ : TypeEnv} {o : Operand α} {ty : VarType} :
    o.HasType Γ ty → ∀ e ∈ o.exprs, ∃ t, e.HasType Γ t
  | .literal .. => nofun
  | .var _ => nofun
  | .group h => h.of_mem_exprs

theorem Expr.HasType.of_mem_exprs {Γ : TypeEnv} {e : Expr α} {ty : VarType} :
    e.HasType Γ ty → ∀ e' ∈ e.exprs, ∃ t, e'.HasType Γ t
  | .single h => by
    intro e he
    rcases List.mem_append.1 he with he | he
    · exact h.of_mem_exprs e he
    · obtain rfl := List.mem_singleton.1 he
      exact ⟨_, .single h⟩
  | .negation h => by
    intro e he
    rcases List.mem_append.1 he with he | he
    · exact h.of_mem_exprs e he
    · obtain rfl := List.mem_singleton.1 he
      exact ⟨_, .negation h⟩
  | .binary hop hl hr => by
    intro e he
    rcases List.mem_append.1 he with he | he
    · rcases List.mem_append.1 he with he | he
      · exact hl.of_mem_exprs e he
      · exact hr.of_mem_exprs e he
    · obtain rfl := List.mem_singleton.1 he
      exact ⟨_, .binary hop hl hr⟩

end

mutual

theorem Stmt.Typed.of_mem_exprs {Γ : TypeEnv} {s : Stmt α} (h : s.Typed Γ) {e : Expr α}
    (he : e ∈ s.exprs) : ∃ ty, e.HasType Γ ty := by
  cases s with
  | declare p x ty init =>
    cases init with
    | none => cases he
    | some e' => exact h.2.of_mem_exprs e he
  | assign p x e' =>
    obtain ⟨ty, _, h⟩ := h
    exact h.of_mem_exprs e he
  | forLoop p x a b body =>
    obtain ⟨_, ha, hb, hbody⟩ := h
    rcases List.mem_append.1 he with he | he
    · rcases List.mem_append.1 he with he | he
      · exact ha.of_mem_exprs e he
      · exact hb.of_mem_exprs e he
    · exact Block.Typed.of_mem_exprs hbody he
  | ifThen p c body =>
    rcases List.mem_append.1 he with he | he
    · exact h.1.of_mem_exprs e he
    · exact Block.Typed.of_mem_exprs h.2 he
  | ifElse p c body otherwise =>
    obtain ⟨hc, hbody, hotherwise⟩ := h
    rcases List.mem_append.1 he with he | he
    · rcases List.mem_append.1 he with he | he
      · exact hc.of_mem_exprs e he
      · exact Block.Typed.of_mem_exprs hbody he
    · exact Block.Typed.of_mem_exprs hotherwise he
  | print p e' =>
    obtain ⟨ty, h⟩ := h
    exact h.of_mem_exprs e he
  | read p x => cases he
  | assert p c => exact Expr.HasType.of_mem_exprs h e he
termination_by structural s

/-- All expressions of a typed block have types. -/
theorem Block.Typed.of_mem_exprs {Γ : TypeEnv} {b : Block α} (h : Block.Typed Γ b) {e : Expr α}
    (he : e ∈ Block.exprs b) : ∃ ty, e.HasType Γ ty := by
  cases b with
  | nil => cases he
  | cons s rest =>
    rcases List.mem_append.1 he with he | he
    · exact Stmt.Typed.of_mem_exprs h.1 he
    · exact Block.Typed.of_mem_exprs h.2 he
termination_by structural b

end

/-! ## Looking up a type -/

/-- In a list of pairs in which no key is there twice, every pair is found by its key. -/
theorem lookup_eq_of_mem {κ β : Type} [BEq κ] [LawfulBEq κ] {l : List (κ × β)}
    (hl : (l.map Prod.fst).Nodup) {k : κ} {b : β} (h : (k, b) ∈ l) : l.lookup k = some b := by
  induction l with
  | nil => cases h
  | cons e rest ih =>
    obtain ⟨k', b'⟩ := e
    rw [List.map_cons, List.nodup_cons] at hl
    rcases List.mem_cons.1 h with he | hrest
    · cases he
      exact List.lookup_cons_self
    · -- The pair is another one than the first, so its key is another one too.
      have hne : k ≠ k' := by
        rintro rfl
        exact hl.1 (List.mem_map.2 ⟨_, hrest, rfl⟩)
      rw [List.lookup_cons, beq_false_of_ne hne]
      exact ih hl.2 hrest

/-- The record tells the type of every expression in a numbered program without
    faults. -/
theorem Block.lookup_types {σ τ : Store VarType} {b : Block α}
    (h : Block.faults σ (Block.number b) = [])
    (hτ : TypeEnv.Extends τ.ty? (Block.extend σ (Block.number b)).ty?) {e : Expr Nat}
    (he : e ∈ Block.exprs (Block.number b)) :
    (Block.types σ (Block.number b)).lookup e.label = some (e.ty? τ) := by
  have hkeys : ((Block.exprs (Block.number b)).map (Expr.entry τ)).map Prod.fst =
      Block.labels (Block.number b) := by
    rw [List.map_map, Block.labels_eq]
    rfl
  rw [Block.types_eq h hτ]
  -- An entry is found by its label, as no number is there twice.
  refine lookup_eq_of_mem ?_ (List.mem_map.2 ⟨e, he, rfl⟩)
  rw [hkeys, Block.labels_number]
  exact List.nodup_range'

end MiniPL
