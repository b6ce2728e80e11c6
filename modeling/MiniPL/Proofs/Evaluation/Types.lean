import MiniPL.Evaluation
import MiniPL.Proofs.Store.Types
import MiniPL.Proofs.Syntax.Parts
import MiniPL.Proofs.Typing.Rules

/-!
# Types of values

An expression with a type evaluates to a value of that type, on a store that has these
variables with values of their types (`Expr.HasType.yields`). It may end without a value
(`Yields`): because of a variable without a value, a division by zero, or a literal that
is too long. But no operator is applied to operands that it does not take, which would be
`Halt.stuck`.

What an operator does may depend on the type of its expression. It is the same whether this
type is found in the store or looked up by the label of the expression, where the right types
are recorded (`Expr.evalBy_eq`).
-/

namespace MiniPL

/-- Whether an evaluation gives a value of type `ty`, unless it ends for a good reason. -/
def Yields (strict : Bool) (ty : VarType) : Except Halt Value → Prop
  | .ok v => v.OfType strict ty
  | .error h => h ≠ .stuck

variable {α : Type} {strict : Bool}

theorem Yields.bind {ty ty' : VarType} {x : Except Halt Value} {f : Value → Except Halt Value}
    (hx : Yields strict ty x) (hf : ∀ v, v.OfType strict ty → Yields strict ty' (f v)) :
    Yields strict ty' (x >>= f) := by
  cases x with
  | ok v => exact hf v hx
  | error h => exact hx

/-! ## Operators -/

theorem Literal.eval_yields (l : Literal) : Yields strict l.ty l.eval := by
  cases l with
  | int digits =>
    rw [Literal.eval]
    split
    · exact Value.ofType_int_iff.2 ⟨_, rfl⟩
    · intro h
      cases h
  | text content => exact Value.ofType_string_iff.2 ⟨_, rfl⟩

theorem Value.divided_yields (p : Pos) (m n : Int) :
    Yields strict .int (Value.divided p (.int m) (.int n)) := by
  by_cases hn : n = 0
  · -- A division by zero is a fault of the program.
    subst hn
    nofun
  · simp only [divided, number?, quotient?, hn, if_false, Option.map_some]
    exact ofType_int_iff.2 ⟨_, rfl⟩

/-- Between operands of a type that it accepts, an operator on integers has two integers. -/
theorem BinOp.exists_int {op : BinOp} {ty : VarType} {a b : Value} (h : op.accepts = [.int])
    (hop : ty ∈ op.accepts) (ha : a.OfType strict ty) (hb : b.OfType strict ty) :
    ty = .int ∧ ∃ m n, a = .int m ∧ b = .int n := by
  rw [h] at hop
  obtain rfl := List.mem_singleton.1 hop
  obtain ⟨m, rfl⟩ := Value.ofType_int_iff.1 ha
  obtain ⟨n, rfl⟩ := Value.ofType_int_iff.1 hb
  exact ⟨rfl, m, n, rfl, rfl⟩

/-- An operator gives a value of its result type, between operands of a type that it
    accepts. -/
theorem BinOp.apply_yields {op : BinOp} {ty : VarType} {a b : Value} (p : Pos)
    (hop : ty ∈ op.accepts) (ha : a.OfType strict ty) (hb : b.OfType strict ty) :
    Yields strict (op.result ty) (op.apply (some (op.result ty)) p a b) := by
  cases op with
  | add =>
    simp only [accepts, List.mem_cons, List.not_mem_nil, or_false] at hop
    rcases hop with rfl | rfl
    · obtain ⟨m, rfl⟩ := Value.ofType_int_iff.1 ha
      obtain ⟨n, rfl⟩ := Value.ofType_int_iff.1 hb
      exact Value.ofType_int_iff.2 ⟨m + n, rfl⟩
    · obtain ⟨s, rfl⟩ := Value.ofType_string_iff.1 ha
      obtain ⟨t, rfl⟩ := Value.ofType_string_iff.1 hb
      exact Value.ofType_string_iff.2 ⟨s ++ t, rfl⟩
  | sub =>
    obtain ⟨rfl, m, n, rfl, rfl⟩ := BinOp.exists_int rfl hop ha hb
    exact Value.ofType_int_iff.2 ⟨m - n, rfl⟩
  | mul =>
    obtain ⟨rfl, m, n, rfl, rfl⟩ := BinOp.exists_int rfl hop ha hb
    exact Value.ofType_int_iff.2 ⟨m * n, rfl⟩
  | div =>
    obtain ⟨rfl, m, n, rfl, rfl⟩ := BinOp.exists_int rfl hop ha hb
    exact Value.divided_yields p m n
  | eq => exact Value.ofType_bool _
  | lt =>
    obtain ⟨rfl, m, n, rfl, rfl⟩ := BinOp.exists_int rfl hop ha hb
    exact Value.ofType_bool _
  | gt =>
    obtain ⟨rfl, m, n, rfl, rfl⟩ := BinOp.exists_int rfl hop ha hb
    exact Value.ofType_bool _
  | and =>
    -- The result is one of the operands.
    obtain rfl := List.mem_singleton.1 hop
    rw [apply]
    split
    · exact hb
    · exact ha

/-! ## Expressions -/

variable {σ : Store VarType}

theorem Store.Fits.ofType_of_value? (hσ : σ.Fits strict) {x : String} {ty : VarType} {v : Value}
    (hx : σ.ty? x = some ty) (hv : σ.value? x = some v) : v.OfType strict ty := by
  obtain ⟨⟨t, value⟩, hc, rfl⟩ := Option.map_eq_some_iff.1 hx
  rw [value?, hc, Option.bind_some] at hv
  obtain rfl : value = some v := hv
  exact hσ hc

mutual

theorem Operand.HasType.yields (hσ : σ.Fits strict) {o : Operand α} {ty : VarType} :
    o.HasType σ.ty? ty → Yields strict ty (o.eval σ)
  | .literal _ l => l.eval_yields
  | .var (x := x) hx => by
    rw [Operand.eval]
    split
    · next v hv => exact hσ.ofType_of_value? hx hv
    · -- The variable is there, but it may hold no value: that is a fault of the program.
      nofun
  | .group h => h.yields hσ

/-- An expression with a type evaluates to a value of that type. -/
theorem Expr.HasType.yields (hσ : σ.Fits strict) {e : Expr α} {ty : VarType} :
    e.HasType σ.ty? ty → Yields strict ty (e.eval σ)
  | .single h => h.yields hσ
  | .negation h => (h.yields hσ).bind fun v _ => Value.ofType_bool !v.truthy
  | .binary hop hl hr => by
    -- The operands have types in the store, which say what the operator does.
    rw [Expr.eval, hl.ty?_eq, hr.ty?_eq, BinOp.ty?_some]
    exact (hl.yields hσ).bind fun a ha =>
      (hr.yields hσ).bind fun b hb => BinOp.apply_yields _ hop ha hb

end

/-- Whether the operands of an operator evaluate to values of one type that it accepts. -/
def Expr.OperandsFit (strict : Bool) (σ : Store VarType) : Expr α → Prop
  | .single .. => True
  | .negation _ _ o => Yields strict .bool (o.eval σ)
  | .binary _ l op _ r =>
    ∃ ty ∈ op.accepts, Yields strict ty (l.eval σ) ∧ Yields strict ty (r.eval σ)

theorem Expr.HasType.operandsFit (hσ : σ.Fits strict) {e : Expr α} {ty : VarType}
    (h : e.HasType σ.ty? ty) : e.OperandsFit strict σ := by
  cases h with
  | single _ => trivial
  | negation h => exact h.yields hσ
  | binary hop hl hr => exact ⟨_, hop, hl.yields hσ, hr.yields hσ⟩

/-! ## Recorded types -/

mutual

/-- The value of an operand, with the types that `types` has for labels. -/
def Operand.evalBy (types : α → Option VarType) (σ : Store VarType) :
    Operand α → Except Halt Value
  | .literal _ l => l.eval
  | .var p x =>
    match σ.value? x with
    | some v => .ok v
    | none => .error (.fault ⟨.uninitialized x, p⟩)
  | .group _ e => e.evalBy types σ

/-- The value of an expression, with the types that `types` has for labels. -/
def Expr.evalBy (types : α → Option VarType) (σ : Store VarType) : Expr α → Except Halt Value
  | .single _ o => o.evalBy types σ
  | .negation _ _ o => do
    let v ← o.evalBy types σ
    return .bool !v.truthy
  | .binary label l op p r => do
    let a ← l.evalBy types σ
    let b ← r.evalBy types σ
    op.apply (types label) p a b

end

variable {types : α → Option VarType}

mutual

theorem Operand.evalBy_eq : (o : Operand α) → (∀ e ∈ o.exprs, types e.label = e.ty? σ) →
    o.evalBy types σ = o.eval σ
  | .literal .., _ => rfl
  | .var .., _ => rfl
  | .group _ e, h => e.evalBy_eq h

/-- Types that are right for an expression and all expressions in it give its value. -/
theorem Expr.evalBy_eq : (e : Expr α) → (∀ e' ∈ e.exprs, types e'.label = e'.ty? σ) →
    e.evalBy types σ = e.eval σ
  | .single _ o, h => o.evalBy_eq fun e he => h e (List.mem_append_left _ he)
  | .negation _ _ o, h => by
    rw [Expr.evalBy, Expr.eval, o.evalBy_eq fun e he => h e (List.mem_append_left _ he)]
  | .binary label l op p r, h => by
    rw [Expr.exprs, List.forall_mem_append, List.forall_mem_append, List.forall_mem_singleton] at h
    obtain ⟨⟨hl, hr⟩, hlabel⟩ := h
    have hty : types label = op.ty? (l.ty? σ) (r.ty? σ) := hlabel
    rw [Expr.evalBy, Expr.eval, l.evalBy_eq hl, r.evalBy_eq hr, hty]

end

end MiniPL
