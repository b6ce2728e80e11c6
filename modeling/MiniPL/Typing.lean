import MiniPL.Store

/-!
# Types and declarations

Before a program runs, its declarations and types are checked against the variables
that there are. There is one table of variables, blocks open no scope: a declaration
anywhere in the text adds its variable for all of the text after it, beginning with
its own initial value.

* `Expr.ty?`: the type of an expression, if it has one. An expression has none where
  a variable that is not declared leaves its type open;
* `Expr.faults`, `Stmt.faults`, `Block.faults`: what is wrong, in the order of the
  text. A check on an expression without a type says nothing: the reason has been
  reported already;
* `Stmt.extend`, `Block.extend`: the variables after a statement. The first
  declaration of a name counts, a further one is a fault and changes nothing;
* `Expr.types`, `Stmt.types`, `Block.types`: the types of all expressions, by their
  labels, in the order in which the expressions end.
-/

namespace MiniPL

/-- What is wrong with a declaration or a type. -/
inductive SemanticFault
  | undeclared (name : String)
  | redeclared (name : String)
  | mismatch (expected got : VarType)
  | notAccepted (op : BinOp) (ty : VarType)
  deriving DecidableEq, Repr

/-- The wording of a fault. -/
def SemanticFault.message : SemanticFault → String
  | undeclared x => s!"Variable is not declared: {x}"
  | redeclared x => s!"Variable is already declared: {x}"
  | mismatch expected got => s!"Type mismatch (expected {expected.text}, got {got.text})"
  | notAccepted op ty =>
      "Type mismatch (operator '" ++ op.symbol.text ++ "' does not accept " ++ ty.text ++ ")"

namespace BinOp

/-- The types of which an operator takes two operands. -/
def accepts : BinOp → List VarType
  | add => [.int, .string]
  | sub => [.int]
  | mul => [.int]
  | div => [.int]
  | eq => [.int, .string, .bool]
  | lt => [.int]
  | gt => [.int]
  | and => [.bool]

/-- The comparisons, whose result is a truth value. -/
def isComparison : BinOp → Bool
  | eq => true
  | lt => true
  | gt => true
  | _ => false

/-- The type of what an operator makes of operands of the types `left?` and `right?`. -/
def ty? (op : BinOp) (left? right? : Option VarType) : Option VarType :=
  if op.isComparison then some .bool else left?.or right?

end BinOp

variable {α : Type}

/-- The type of a literal. -/
def Literal.ty : Literal → VarType
  | .int _ => .int
  | .text _ => .string

mutual

/-- The type of an operand, if it has one. -/
def Operand.ty? (σ : Store VarType) : Operand α → Option VarType
  | .literal _ l => some l.ty
  | .var _ x => σ.ty? x
  | .group _ e => e.ty? σ

/-- The type of an expression, if it has one. -/
def Expr.ty? (σ : Store VarType) : Expr α → Option VarType
  | .single _ o => o.ty? σ
  | .negation .. => some .bool
  | .binary _ l op _ r => op.ty? (l.ty? σ) (r.ty? σ)

end

/-- The fault of a type `got?` where `expected?` is expected. -/
def VarType.expect (expected? got? : Option VarType) (pos : Pos) : List (Located SemanticFault) :=
  match expected?, got? with
  | some expected, some got => if expected = got then [] else [⟨.mismatch expected got, pos⟩]
  | _, _ => []

/-- The fault of an operator at `opPos` between operands of the types `left?` and
    `right?`, the second one at `rightPos`. -/
def BinOp.faults (op : BinOp) (opPos : Pos) (left? right? : Option VarType) (rightPos : Pos) :
    List (Located SemanticFault) :=
  match left?, right? with
  | some left, some right =>
    if left ≠ right then [⟨.mismatch left right, rightPos⟩]
    else if left ∈ op.accepts then [] else [⟨.notAccepted op left, opPos⟩]
  | _, _ => []

/-- The fault of a name at `pos` that is not declared. -/
def Store.require (σ : Store VarType) (x : String) (pos : Pos) : List (Located SemanticFault) :=
  if σ.contains x then [] else [⟨.undeclared x, pos⟩]

mutual

/-- What is wrong with an operand. -/
def Operand.faults (σ : Store VarType) : Operand α → List (Located SemanticFault)
  | .literal .. => []
  | .var p x => σ.require x p
  | .group _ e => e.faults σ

/-- What is wrong with an expression. -/
def Expr.faults (σ : Store VarType) : Expr α → List (Located SemanticFault)
  | .single _ o => o.faults σ
  | .negation _ _ o => o.faults σ ++ VarType.expect (some .bool) (o.ty? σ) o.pos
  | .binary _ l op p r =>
    l.faults σ ++ r.faults σ ++ op.faults p (l.ty? σ) (r.ty? σ) r.pos

end

mutual

/-- The types of the expressions in an operand. -/
def Operand.types (σ : Store VarType) : Operand α → List (α × Option VarType)
  | .literal .. => []
  | .var .. => []
  | .group _ e => e.types σ

/-- The types of the expressions in an expression, itself included. -/
def Expr.types (σ : Store VarType) : Expr α → List (α × Option VarType)
  | .single a o => o.types σ ++ [(a, o.ty? σ)]
  | .negation a _ o => o.types σ ++ [(a, some .bool)]
  | .binary a l op p r =>
    l.types σ ++ r.types σ ++ [(a, (Expr.binary a l op p r).ty? σ)]

end

mutual

/-- The variables after a statement. -/
def Stmt.extend (σ : Store VarType) : Stmt α → Store VarType
  | .declare _ x ty _ => if σ.contains x then σ else σ.declare x (.known ty) none
  | .assign .. => σ
  | .forLoop _ _ _ _ body => Block.extend σ body
  | .ifThen _ _ body => Block.extend σ body
  | .ifElse _ _ body otherwise => Block.extend (Block.extend σ body) otherwise
  | .print .. => σ
  | .read .. => σ
  | .assert .. => σ

/-- The variables after a block. -/
def Block.extend (σ : Store VarType) : Block α → Store VarType
  | [] => σ
  | s :: rest => Block.extend (s.extend σ) rest

end

mutual

/-- What is wrong with a statement. -/
def Stmt.faults (σ : Store VarType) : Stmt α → List (Located SemanticFault)
  | .declare p x _ none => if σ.contains x then [⟨.redeclared x, p⟩] else []
  | .declare p x ty (some e) =>
    let τ := if σ.contains x then σ else σ.declare x (.known ty) none
    (if σ.contains x then [⟨.redeclared x, p⟩] else []) ++
      e.faults τ ++ VarType.expect (some (.known ty)) (e.ty? τ) e.pos
  | .assign p x e => σ.require x p ++ e.faults σ ++ VarType.expect (σ.ty? x) (e.ty? σ) e.pos
  | .forLoop p x a b body =>
    σ.require x p ++ VarType.expect (some .int) (σ.ty? x) p ++ a.faults σ ++ b.faults σ ++
      VarType.expect (some .int) (a.ty? σ) a.pos ++ VarType.expect (some .int) (b.ty? σ) b.pos ++
      Block.faults σ body
  | .ifThen _ c body =>
    c.faults σ ++ VarType.expect (some .bool) (c.ty? σ) c.pos ++ Block.faults σ body
  | .ifElse _ c body otherwise =>
    c.faults σ ++ VarType.expect (some .bool) (c.ty? σ) c.pos ++ Block.faults σ body ++
      Block.faults (Block.extend σ body) otherwise
  | .print _ e => e.faults σ
  | .read p x => σ.require x p
  | .assert _ c => c.faults σ ++ VarType.expect (some .bool) (c.ty? σ) c.pos

/-- What is wrong with a block. -/
def Block.faults (σ : Store VarType) : Block α → List (Located SemanticFault)
  | [] => []
  | s :: rest => s.faults σ ++ Block.faults (s.extend σ) rest

end

mutual

/-- The types of the expressions in a statement. -/
def Stmt.types (σ : Store VarType) : Stmt α → List (α × Option VarType)
  | .declare _ _ _ none => []
  | .declare _ x ty (some e) => e.types (if σ.contains x then σ else σ.declare x (.known ty) none)
  | .assign _ _ e => e.types σ
  | .forLoop _ _ a b body => a.types σ ++ b.types σ ++ Block.types σ body
  | .ifThen _ c body => c.types σ ++ Block.types σ body
  | .ifElse _ c body otherwise =>
    c.types σ ++ Block.types σ body ++ Block.types (Block.extend σ body) otherwise
  | .print _ e => e.types σ
  | .read .. => []
  | .assert _ c => c.types σ

/-- The types of the expressions in a block. -/
def Block.types (σ : Store VarType) : Block α → List (α × Option VarType)
  | [] => []
  | s :: rest => s.types σ ++ Block.types (s.extend σ) rest

end

end MiniPL
