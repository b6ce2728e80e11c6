import MiniPL.Program
import MiniPL.Proofs.Typing.Record

/-!
# Well-typed programs

Rules for whole programs, which say nothing of faults, of tables of variables, or of how a
check goes on after a fault. A statement is well typed in an environment, and has an environment
after it (`Stmt.WellTyped`). Environments only grow: there is one for the whole text, blocks open
no scope, and a declaration is of a new name, which is there for its own initial value already.
A derivation tells the types of all expressions in it, with their labels, in the order in which
they end.

The check decides these rules: a program passes it if and only if it is well typed, and then what
is recorded are the types of the derivation (`checkProgram_eq_ok_iff`).
-/

namespace MiniPL

/-- The environment in which `x` has the type `ty`, and all else is as in `Γ`. -/
def TypeEnv.declare (Γ : TypeEnv) (x : String) (ty : VarType) : TypeEnv :=
  fun y => if y = x then some ty else Γ y

/-- The operators, with a type that both operands may have, and the type of the result then. -/
inductive BinOp.Takes : BinOp → (operand result : VarType) → Prop
  | addInt : Takes .add .int .int
  | addString : Takes .add .string .string
  | sub : Takes .sub .int .int
  | mul : Takes .mul .int .int
  | div : Takes .div .int .int
  | eq (ty : Ty) : Takes .eq (.known ty) .bool
  | lt : Takes .lt .int .bool
  | gt : Takes .gt .int .bool
  | and : Takes .and .bool .bool

/-- What an operator takes and makes are the types that the check accepts and records. -/
theorem BinOp.takes_iff {op : BinOp} {operand result : VarType} :
    op.Takes operand result ↔ operand ∈ op.accepts ∧ op.result operand = result := by
  constructor
  · rintro (_ | _ | _ | _ | _ | ty | _ | _ | _)
    case eq => cases ty <;> decide
    all_goals decide
  · rintro ⟨h, rfl⟩
    cases op <;> simp only [accepts, List.mem_cons, List.not_mem_nil, or_false] at h
    case add => rcases h with rfl | rfl <;> constructor
    case eq => rcases h with rfl | rfl | rfl <;> constructor
    all_goals subst h; constructor

variable {α : Type}

/-! ## The rules -/

mutual

/-- The operand has the type `ty` in the environment `Γ`, and `types` are the types of the
    expressions in it. -/
inductive Operand.WellTyped (Γ : TypeEnv) :
    Operand α → (ty : VarType) → (types : List (α × VarType)) → Prop
  | int {p : Pos} {digits : String} :
    Operand.WellTyped Γ (.literal p (.int digits)) .int []
  | text {p : Pos} {content : String} :
    Operand.WellTyped Γ (.literal p (.text content)) .string []
  | var {p : Pos} {x : String} {ty : VarType} :
    Γ x = some ty → Operand.WellTyped Γ (.var p x) ty []
  | group {p : Pos} {e : Expr α} {ty : VarType} {types : List (α × VarType)} :
    Expr.WellTyped Γ e ty types → Operand.WellTyped Γ (.group p e) ty types

/-- The expression has the type `ty` in the environment `Γ`, and `types` are the types of the
    expressions in it, itself included. -/
inductive Expr.WellTyped (Γ : TypeEnv) :
    Expr α → (ty : VarType) → (types : List (α × VarType)) → Prop
  | single {a : α} {o : Operand α} {ty : VarType} {types : List (α × VarType)} :
    Operand.WellTyped Γ o ty types → Expr.WellTyped Γ (.single a o) ty (types ++ [(a, ty)])
  | negation {a : α} {p : Pos} {o : Operand α} {types : List (α × VarType)} :
    Operand.WellTyped Γ o .bool types →
      Expr.WellTyped Γ (.negation a p o) .bool (types ++ [(a, .bool)])
  | binary {a : α} {l r : Operand α} {op : BinOp} {p : Pos} {operand result : VarType}
    {left right : List (α × VarType)} :
    op.Takes operand result → Operand.WellTyped Γ l operand left →
      Operand.WellTyped Γ r operand right →
      Expr.WellTyped Γ (.binary a l op p r) result (left ++ right ++ [(a, result)])

end

mutual

/-- The statement is well typed in the environment `Γ`, which is `Δ` after it, and `types` are
    the types of the expressions in it. -/
inductive Stmt.WellTyped :
    (Γ : TypeEnv) → Stmt α → (Δ : TypeEnv) → (types : List (α × VarType)) → Prop
  | declare {Γ : TypeEnv} {p : Pos} {x : String} {ty : Ty} :
    Γ x = none → Stmt.WellTyped Γ (.declare p x ty none) (Γ.declare x (.known ty)) []
  | declareInit {Γ : TypeEnv} {p : Pos} {x : String} {ty : Ty} {e : Expr α}
    {types : List (α × VarType)} :
    Γ x = none → Expr.WellTyped (Γ.declare x (.known ty)) e (.known ty) types →
      Stmt.WellTyped Γ (.declare p x ty (some e)) (Γ.declare x (.known ty)) types
  | assign {Γ : TypeEnv} {p : Pos} {x : String} {ty : VarType} {e : Expr α}
    {types : List (α × VarType)} :
    Γ x = some ty → Expr.WellTyped Γ e ty types → Stmt.WellTyped Γ (.assign p x e) Γ types
  | forLoop {Γ Δ : TypeEnv} {p : Pos} {x : String} {a b : Expr α} {body : Block α}
    {first last inner : List (α × VarType)} :
    Γ x = some .int → Expr.WellTyped Γ a .int first → Expr.WellTyped Γ b .int last →
      Block.WellTyped Γ body Δ inner →
      Stmt.WellTyped Γ (.forLoop p x a b body) Δ (first ++ last ++ inner)
  | ifThen {Γ Δ : TypeEnv} {p : Pos} {c : Expr α} {body : Block α}
    {cond inner : List (α × VarType)} :
    Expr.WellTyped Γ c .bool cond → Block.WellTyped Γ body Δ inner →
      Stmt.WellTyped Γ (.ifThen p c body) Δ (cond ++ inner)
  | ifElse {Γ Δ Θ : TypeEnv} {p : Pos} {c : Expr α} {body otherwise : Block α}
    {cond inner rest : List (α × VarType)} :
    Expr.WellTyped Γ c .bool cond → Block.WellTyped Γ body Δ inner →
      Block.WellTyped Δ otherwise Θ rest →
      Stmt.WellTyped Γ (.ifElse p c body otherwise) Θ (cond ++ inner ++ rest)
  | print {Γ : TypeEnv} {p : Pos} {e : Expr α} {ty : VarType} {types : List (α × VarType)} :
    Expr.WellTyped Γ e ty types → Stmt.WellTyped Γ (.print p e) Γ types
  | read {Γ : TypeEnv} {p : Pos} {x : String} {ty : VarType} :
    Γ x = some ty → Stmt.WellTyped Γ (.read p x) Γ []
  | assert {Γ : TypeEnv} {p : Pos} {c : Expr α} {types : List (α × VarType)} :
    Expr.WellTyped Γ c .bool types → Stmt.WellTyped Γ (.assert p c) Γ types

/-- The block is well typed in the environment `Γ`, which is `Δ` after it, and `types` are the
    types of the expressions in it. -/
inductive Block.WellTyped :
    (Γ : TypeEnv) → Block α → (Δ : TypeEnv) → (types : List (α × VarType)) → Prop
  | nil {Γ : TypeEnv} : Block.WellTyped Γ [] Γ []
  | cons {Γ Δ Θ : TypeEnv} {s : Stmt α} {rest : Block α} {first more : List (α × VarType)} :
    Stmt.WellTyped Γ s Δ first → Block.WellTyped Δ rest Θ more →
      Block.WellTyped Γ (s :: rest) Θ (first ++ more)

end

/-! ## Expressions -/

section Expressions

variable {Γ : TypeEnv} {σ : Store VarType} {ty : VarType}

mutual

theorem Operand.WellTyped.hasType {o : Operand α} {ty : VarType} {types : List (α × VarType)} :
    o.WellTyped Γ ty types → o.HasType Γ ty
  | .int => .literal _ (.int _)
  | .text => .literal _ (.text _)
  | .var h => .var h
  | .group h => .group h.hasType

theorem Expr.WellTyped.hasType {e : Expr α} {ty : VarType} {types : List (α × VarType)} :
    e.WellTyped Γ ty types → e.HasType Γ ty
  | .single h => .single h.hasType
  | .negation h => .negation h.hasType
  | .binary hop hl hr => by
    obtain ⟨hmem, rfl⟩ := BinOp.takes_iff.1 hop
    exact .binary hmem hl.hasType hr.hasType

end

mutual

theorem Operand.HasType.exists_wellTyped {o : Operand α} {ty : VarType} :
    o.HasType Γ ty → ∃ types, o.WellTyped Γ ty types
  | .literal _ (.int _) => ⟨_, .int⟩
  | .literal _ (.text _) => ⟨_, .text⟩
  | .var h => ⟨_, .var h⟩
  | .group h => by
    obtain ⟨types, h⟩ := h.exists_wellTyped
    exact ⟨types, .group h⟩

theorem Expr.HasType.exists_wellTyped {e : Expr α} {ty : VarType} :
    e.HasType Γ ty → ∃ types, e.WellTyped Γ ty types
  | .single h => by
    obtain ⟨types, h⟩ := h.exists_wellTyped
    exact ⟨_, .single h⟩
  | .negation h => by
    obtain ⟨types, h⟩ := h.exists_wellTyped
    exact ⟨_, .negation h⟩
  | .binary hmem hl hr => by
    obtain ⟨left, hl⟩ := hl.exists_wellTyped
    obtain ⟨right, hr⟩ := hr.exists_wellTyped
    exact ⟨_, .binary (BinOp.takes_iff.2 ⟨hmem, rfl⟩) hl hr⟩

end

/-- A type of a derivation, as it is recorded. -/
abbrev recorded (entry : α × VarType) : α × Option VarType := (entry.1, some entry.2)

mutual

theorem Operand.WellTyped.types_eq {o : Operand α} {ty : VarType} {types : List (α × VarType)} :
    o.WellTyped σ.ty? ty types → o.types σ = types.map recorded
  | .int => rfl
  | .text => rfl
  | .var _ => rfl
  | .group h => h.types_eq

/-- The types of a derivation are recorded. -/
theorem Expr.WellTyped.types_eq {e : Expr α} {ty : VarType} {types : List (α × VarType)} :
    e.WellTyped σ.ty? ty types → e.types σ = types.map recorded
  | .single h => by simp [Expr.types, h.types_eq, h.hasType.ty?_eq]
  | .negation h => by simp [Expr.types, h.types_eq]
  | .binary hop hl hr => by
    simp [Expr.types, Expr.ty?, hl.types_eq, hr.types_eq, hl.hasType.ty?_eq, hr.hasType.ty?_eq,
      BinOp.ty?_some, (BinOp.takes_iff.1 hop).2]

end

/-- An expression that passes a check for the type `ty` is well typed. -/
theorem Expr.exists_wellTyped {e : Expr α} {p : Pos} (hf : e.faults σ = [])
    (he : VarType.expect (some ty) (e.ty? σ) p = []) : ∃ types, e.WellTyped σ.ty? ty types :=
  (Expr.hasType_of_faults hf he).exists_wellTyped

/-- A well-typed expression passes a check for its type. -/
theorem Expr.WellTyped.expect_eq_nil {e : Expr α} {types : List (α × VarType)}
    (h : e.WellTyped σ.ty? ty types) (p : Pos) :
    VarType.expect (some ty) (e.ty? σ) p = [] := by
  rw [h.hasType.ty?_eq, VarType.expect_some_eq_nil_iff]

end Expressions

/-! ## Statements -/

section Statements

variable {σ : Store VarType}

/-- A new declaration adds to the environment what it says. -/
theorem Store.ty?_declareNew_eq {x : String} (hx : σ.ty? x = none) (ty : Ty) :
    (σ.declareNew x ty).ty? = TypeEnv.declare σ.ty? x (.known ty) := by
  funext y
  rw [declareNew, contains_eq_false_iff.2 hx, if_neg Bool.false_ne_true, ty?, find?_declare,
    TypeEnv.declare]
  split <;> rfl

mutual

theorem Stmt.WellTyped.passes {σ : Store VarType} {Γ Δ : TypeEnv} {s : Stmt α}
    {types : List (α × VarType)} (hσ : σ.ty? = Γ) : s.WellTyped Γ Δ types →
    s.faults σ = [] ∧ (s.extend σ).ty? = Δ ∧ s.types σ = types.map recorded
  | @Stmt.WellTyped.declare _ _ _ x ty hx => by
    subst hσ
    refine ⟨?_, Store.ty?_declareNew_eq hx ty, rfl⟩
    rw [Stmt.faults, Store.contains_eq_false_iff.2 hx, if_neg Bool.false_ne_true]
  | @Stmt.WellTyped.declareInit _ _ _ x ty _ _ hx he => by
    subst hσ
    have hτ := Store.ty?_declareNew_eq hx ty
    rw [← hτ] at he
    refine ⟨?_, hτ, he.types_eq⟩
    simp only [Stmt.faults, List.append_eq_nil_iff]
    refine ⟨⟨?_, he.hasType.faults_eq_nil⟩, he.expect_eq_nil _⟩
    rw [Store.contains_eq_false_iff.2 hx, if_neg Bool.false_ne_true]
  | .assign hx he => by
    subst hσ
    refine ⟨?_, rfl, he.types_eq⟩
    rw [Stmt.faults, Store.require_eq_nil_iff.2 ⟨_, hx⟩, he.hasType.faults_eq_nil, hx,
      he.expect_eq_nil]
    rfl
  | .forLoop hx ha hb hbody => by
    subst hσ
    obtain ⟨hf, hΔ, htypes⟩ := hbody.passes rfl
    refine ⟨?_, hΔ, by rw [Stmt.types, ha.types_eq, hb.types_eq, htypes]; simp⟩
    rw [Stmt.faults, Store.require_eq_nil_iff.2 ⟨_, hx⟩, hx, ha.hasType.faults_eq_nil,
      hb.hasType.faults_eq_nil, ha.expect_eq_nil, hb.expect_eq_nil, hf]
    rfl
  | .ifThen hc hbody => by
    subst hσ
    obtain ⟨hf, hΔ, htypes⟩ := hbody.passes rfl
    refine ⟨?_, hΔ, by rw [Stmt.types, hc.types_eq, htypes]; simp⟩
    rw [Stmt.faults, hc.hasType.faults_eq_nil, hc.expect_eq_nil, hf]
    rfl
  | .ifElse hc hbody hotherwise => by
    subst hσ
    obtain ⟨hf, hΔ, htypes⟩ := hbody.passes rfl
    obtain ⟨hf', hΘ, htypes'⟩ := hotherwise.passes hΔ
    refine ⟨?_, hΘ, by rw [Stmt.types, hc.types_eq, htypes, htypes']; simp⟩
    rw [Stmt.faults, hc.hasType.faults_eq_nil, hc.expect_eq_nil, hf, hf']
    rfl
  | .print he => by
    subst hσ
    exact ⟨he.hasType.faults_eq_nil, rfl, he.types_eq⟩
  | .read hx => by
    subst hσ
    exact ⟨Store.require_eq_nil_iff.2 ⟨_, hx⟩, rfl, rfl⟩
  | .assert hc => by
    subst hσ
    refine ⟨?_, rfl, hc.types_eq⟩
    rw [Stmt.faults, hc.hasType.faults_eq_nil, hc.expect_eq_nil]
    rfl

/-- A well-typed block has no faults, and its types are recorded. -/
theorem Block.WellTyped.passes {σ : Store VarType} {Γ Δ : TypeEnv} {b : Block α}
    {types : List (α × VarType)} (hσ : σ.ty? = Γ) : Block.WellTyped Γ b Δ types →
    Block.faults σ b = [] ∧ (Block.extend σ b).ty? = Δ ∧ Block.types σ b = types.map recorded
  | .nil => ⟨rfl, hσ, rfl⟩
  | .cons hs hrest => by
    obtain ⟨hf, hΔ, htypes⟩ := hs.passes hσ
    obtain ⟨hf', hΘ, htypes'⟩ := hrest.passes hΔ
    refine ⟨?_, hΘ, by rw [Block.types, htypes, htypes']; simp⟩
    rw [Block.faults, hf, hf']
    rfl

end

mutual

theorem Stmt.exists_wellTyped {σ : Store VarType} {s : Stmt α} (h : s.faults σ = []) :
    ∃ types, s.WellTyped σ.ty? (s.extend σ).ty? types := by
  cases s with
  | declare p x ty init =>
    cases init with
    | none =>
      have hx : σ.ty? x = none := Store.contains_eq_false_iff.1 (by simpa [Stmt.faults] using h)
      rw [Stmt.extend, Store.ty?_declareNew_eq hx ty]
      exact ⟨[], .declare hx⟩
    | some e =>
      simp only [Stmt.faults, List.append_eq_nil_iff] at h
      obtain ⟨⟨hx, hf⟩, he⟩ := h
      have hx : σ.ty? x = none := Store.contains_eq_false_iff.1 (by simpa using hx)
      -- The initial value is checked after the declaration.
      obtain ⟨types, he⟩ := Expr.exists_wellTyped hf he
      rw [Store.ty?_declareNew_eq hx ty] at he
      rw [Stmt.extend, Store.ty?_declareNew_eq hx ty]
      exact ⟨types, .declareInit hx he⟩
  | assign p x e =>
    simp only [Stmt.faults, List.append_eq_nil_iff, Store.require_eq_nil_iff] at h
    obtain ⟨⟨⟨ty, hx⟩, hf⟩, he⟩ := h
    rw [hx] at he
    obtain ⟨types, he⟩ := Expr.exists_wellTyped hf he
    exact ⟨types, .assign hx he⟩
  | forLoop p x a b body =>
    simp only [Stmt.faults, List.append_eq_nil_iff, Store.require_eq_nil_iff] at h
    obtain ⟨⟨⟨⟨⟨⟨⟨ty, hx⟩, hty⟩, hfa⟩, hfb⟩, ha⟩, hb⟩, hbody⟩ := h
    rw [hx, VarType.expect_some_eq_nil_iff] at hty
    subst hty
    obtain ⟨first, ha⟩ := Expr.exists_wellTyped hfa ha
    obtain ⟨last, hb⟩ := Expr.exists_wellTyped hfb hb
    obtain ⟨inner, hbody⟩ := Block.exists_wellTyped hbody
    exact ⟨_, .forLoop hx ha hb hbody⟩
  | ifThen p c body =>
    simp only [Stmt.faults, List.append_eq_nil_iff] at h
    obtain ⟨⟨hf, hc⟩, hbody⟩ := h
    obtain ⟨cond, hc⟩ := Expr.exists_wellTyped hf hc
    obtain ⟨inner, hbody⟩ := Block.exists_wellTyped hbody
    exact ⟨_, .ifThen hc hbody⟩
  | ifElse p c body otherwise =>
    simp only [Stmt.faults, List.append_eq_nil_iff] at h
    obtain ⟨⟨⟨hf, hc⟩, hbody⟩, hotherwise⟩ := h
    obtain ⟨cond, hc⟩ := Expr.exists_wellTyped hf hc
    obtain ⟨inner, hbody⟩ := Block.exists_wellTyped hbody
    obtain ⟨rest, hotherwise⟩ := Block.exists_wellTyped hotherwise
    exact ⟨_, .ifElse hc hbody hotherwise⟩
  | print p e =>
    obtain ⟨ty, hty⟩ := Expr.faults_eq_nil_iff.1 h
    obtain ⟨types, he⟩ := hty.exists_wellTyped
    exact ⟨types, .print he⟩
  | read p x =>
    obtain ⟨ty, hx⟩ := Store.require_eq_nil_iff.1 h
    exact ⟨[], .read hx⟩
  | assert p c =>
    simp only [Stmt.faults, List.append_eq_nil_iff] at h
    obtain ⟨types, hc⟩ := Expr.exists_wellTyped h.1 h.2
    exact ⟨types, .assert hc⟩
termination_by structural s

/-- A block without faults is well typed. -/
theorem Block.exists_wellTyped {σ : Store VarType} {b : Block α} (h : Block.faults σ b = []) :
    ∃ types, Block.WellTyped σ.ty? b (Block.extend σ b).ty? types := by
  cases b with
  | nil => exact ⟨[], .nil⟩
  | cons s rest =>
    rw [Block.faults, List.append_eq_nil_iff] at h
    obtain ⟨first, hs⟩ := Stmt.exists_wellTyped h.1
    obtain ⟨more, hrest⟩ := Block.exists_wellTyped h.2
    exact ⟨_, .cons hs hrest⟩
termination_by structural b

end

end Statements

/-! ## The decision -/

/-- A program passes its check, against any variables, if and only if it is well typed in the
    environment of these variables. Then the variables after the check are those of the
    environment after the program, and the type that is recorded for each expression is the one
    that it has in the derivation. -/
theorem checkProgram_eq_ok_iff (σ : Store VarType) (b : Block α) :
    let program := Block.number b
    ((∃ τ, (checkProgram σ program).result = .ok τ) ↔
      ∃ Δ types, Block.WellTyped σ.ty? program Δ types) ∧
    ∀ Δ types, Block.WellTyped σ.ty? program Δ types →
      (∃ τ, (checkProgram σ program).result = .ok τ ∧ τ.ty? = Δ) ∧
      types.map Prod.fst = (Block.exprs program).map Expr.label ∧
      ∀ label ty, (label, ty) ∈ types →
        (Block.types σ program).lookup label = some (some ty) := by
  intro program
  have hok : ∀ {Δ types}, Block.WellTyped σ.ty? program Δ types →
      (checkProgram σ program).result = .ok (Block.extend σ program) := fun h => by
    simp [checkProgram, (h.passes rfl).1]
  refine ⟨⟨fun ⟨τ, hτ⟩ => ?_, fun ⟨Δ, types, h⟩ => ⟨_, hok h⟩⟩, fun Δ types h => ?_⟩
  · cases hf : Block.faults σ program with
    | nil => exact ⟨_, Block.exists_wellTyped hf⟩
    | cons f rest => simp [checkProgram, hf] at hτ
  · obtain ⟨hf, hΔ, htypes⟩ := h.passes rfl
    have hlabels : types.map Prod.fst = (Block.exprs program).map Expr.label := by
      have hfst := congrArg (List.map Prod.fst) htypes
      rw [Block.types_eq hf (.refl _), List.map_map, List.map_map] at hfst
      exact hfst.symm
    refine ⟨⟨_, hok h, hΔ⟩, hlabels, fun label ty hmem => ?_⟩
    rw [htypes]
    -- No number is there twice, so the entry is found by it.
    refine lookup_eq_of_mem ?_ (List.mem_map.2 ⟨_, hmem, rfl⟩)
    rw [List.map_map]
    change (types.map Prod.fst).Nodup
    rw [hlabels, ← Block.labels_eq, Block.labels_number]
    exact List.nodup_range'

/-- A variable that is declared in a block, with itself as its initial value, and used after the
    block. -/
theorem checkProgram_eq_ok_iff_of_own_value :
    let σ := Store.empty.declare "b" .bool none
    let b : Block Unit :=
      [.ifThen .start (.single () (.var .start "b"))
          [.declare .start "x" .int (some (.single () (.var .start "x")))],
        .assign .start "x" (.single () (.literal .start (.int "1")))]
    ∃ Δ types, Block.WellTyped σ.ty? (Block.number b) Δ types ∧ Δ "x" = some .int := by
  intro σ b
  obtain ⟨hiff, hall⟩ := checkProgram_eq_ok_iff σ b
  have hf : Block.faults σ (Block.number b) = [] := by decide +kernel
  have hok : (checkProgram σ (Block.number b)).result = .ok (Block.extend σ (Block.number b)) := by
    simp [checkProgram, hf]
  obtain ⟨Δ, types, h⟩ := hiff.1 ⟨_, hok⟩
  obtain ⟨⟨τ, hτ, rfl⟩, -, -⟩ := hall Δ types h
  obtain rfl := Except.ok.inj (hok.symm.trans hτ)
  exact ⟨_, types, h, by decide +kernel⟩

end MiniPL
