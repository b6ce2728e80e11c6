import MiniPL.Typing

/-!
# Evaluating expressions

An expression only looks at the store. Both operands of an operator are evaluated,
the left one first, before the operator is applied; so `&` does not spare its right
operand. What `&` gives is one of its operands: the left one if that counts as false,
the right one otherwise. Equality compares values of any kinds.

What `+` does is decided by the type of the expression: if that is `string`, both
operands are spelled and joined, whatever they are; otherwise they are added.

Evaluation ends without a value for one of the reasons in `Halt`. The last of them,
an operator between operands that it does not take, cannot happen in a program that
has been checked, on variables that hold values of their types.
-/

namespace MiniPL

/-- What may go wrong when a program runs. -/
inductive RuntimeFault
  | uninitialized (name : String)
  | divisionByZero
  | notAnInteger
  | assertionFailed
  deriving DecidableEq, Repr

/-- The wording of a fault. -/
def RuntimeFault.message : RuntimeFault → String
  | uninitialized x => s!"Usage of uninitialized variable {x}"
  | divisionByZero => "Integer division by zero"
  | notAnInteger => "Input error: unable to cast input to int"
  | assertionFailed => "Assertion failed"

/-- Why a run ends before the end of the program. -/
inductive Halt
  | fault (f : Located RuntimeFault)
  /-- An integer with too long a text, or an input line that is refused as one. -/
  | conversion (c : Text.ConversionFault)
  /-- A variable that is not there, or operands that an operator does not take. -/
  | stuck
  deriving DecidableEq, Repr

variable {α : Type}

/-- The quotient of two integers, if the divisor is not zero: that of their absolute values, which is
    negated unless both or neither of them are negative. -/
def quotient? (a b : Int) : Option Int :=
  if b = 0 then none
  else
    let quotient : Int := (a.natAbs / b.natAbs : Nat)
    some (if a < 0 ↔ b < 0 then quotient else -quotient)

/-- The result of an operation that is stuck if there is none. -/
def orStuck {β : Type} : Option β → Except Halt β
  | some b => .ok b
  | none => .error .stuck

/-- The text of two values, one after the other. -/
def Value.joined (left right : Value) : Except Halt Value :=
  match left.spelled, right.spelled with
  | .ok s, .ok t => .ok (.text (s ++ t))
  | .error c, _ => .error (.conversion c)
  | _, .error c => .error (.conversion c)

/-- The quotient of two values, by an operator that stands at `pos`. That the divisor
    is zero is found before the dividend is looked at. -/
def Value.divided (pos : Pos) (left right : Value) : Except Halt Value :=
  match left.number?, right.number? with
  | _, some 0 => .error (.fault ⟨.divisionByZero, pos⟩)
  | some a, some b => orStuck ((quotient? a b).map .int)
  | _, _ => .error .stuck

/-- Applies an operator that stands at `pos`, in an expression of type `ty?`. -/
def BinOp.apply (op : BinOp) (ty? : Option VarType) (pos : Pos) (left right : Value) :
    Except Halt Value :=
  match op with
  | .add => if ty? = some .string then left.joined right else orStuck (left.plus? right)
  | .sub => orStuck (left.minus? right)
  | .mul => orStuck (left.times? right)
  | .div => left.divided pos right
  | .eq => .ok (.bool (left.same right))
  | .lt => orStuck ((left.less? right).map .bool)
  | .gt => orStuck ((right.less? left).map .bool)
  | .and => .ok (if left.truthy then right else left)

/-- The value of a literal. -/
def Literal.eval : Literal → Except Halt Value
  | .int digits =>
    match Text.readDigits digits.toList with
    | .ok n => .ok (.int n)
    | .error c => .error (.conversion c)
  | .text content => .ok (.text content)

mutual

/-- The value of an operand. -/
def Operand.eval (σ : Store VarType) : Operand α → Except Halt Value
  | .literal _ l => l.eval
  | .var p x =>
    match σ.value? x with
    | some v => .ok v
    | none => .error (.fault ⟨.uninitialized x, p⟩)
  | .group _ e => e.eval σ

/-- The value of an expression. -/
def Expr.eval (σ : Store VarType) : Expr α → Except Halt Value
  | .single _ o => o.eval σ
  | .negation _ _ o => do
    let v ← o.eval σ
    return .bool !v.truthy
  | .binary _ l op p r => do
    let a ← l.eval σ
    let b ← r.eval σ
    op.apply (op.ty? (l.ty? σ) (r.ty? σ)) p a b

end

end MiniPL
