import MiniPL.Proofs.Syntax.Parts

/-!
# Where names stand

A program mentions names, in the order of its text (`Block.mentions`). At each place the variable
is declared, set, or has its value taken. A variable is set where a value is assigned to it, where
it takes input, and where it counts the turns of a loop. Those that are declared or set anywhere are
the *targets* of the program (`Block.targets`): no others are changed.

The names of the mentions are all names in the program (`Block.names_mentions`).
-/

namespace MiniPL

/-- A name at a place in a program, with what is done with the variable there. -/
inductive Mention
  | declare (x : String) (ty : Ty)
  /-- It is assigned, takes input, or counts the turns of a loop. -/
  | set (x : String)
  /-- It is an operand. -/
  | get (x : String)
  deriving DecidableEq

namespace Mention

/-- The name that is mentioned. -/
def name : Mention → String
  | declare x _ => x
  | set x => x
  | get x => x

/-- Whether it is a declaration of `x`. -/
def declares (x : String) : Mention → Bool
  | declare y _ => y = x
  | _ => false

/-- The name of a variable that is declared or set. -/
def target? : Mention → Option String
  | declare x _ => some x
  | set x => some x
  | get _ => none

end Mention

variable {α : Type}

/-- The names in an expression, all of them operands. -/
def Expr.mentions (e : Expr α) : List Mention := e.names.map .get

mutual

/-- The names in a statement, in the order of the text. -/
def Stmt.mentions : Stmt α → List Mention
  | .declare _ x ty none => [.declare x ty]
  | .declare _ x ty (some e) => .declare x ty :: e.mentions
  | .assign _ x e => .set x :: e.mentions
  | .forLoop _ x a b body => .set x :: (a.mentions ++ b.mentions ++ Block.mentions body)
  | .ifThen _ c body => c.mentions ++ Block.mentions body
  | .ifElse _ c body otherwise => c.mentions ++ Block.mentions body ++ Block.mentions otherwise
  | .print _ e => e.mentions
  | .read _ x => [.set x]
  | .assert _ c => c.mentions

/-- The names in a block, in the order of the text. -/
def Block.mentions : Block α → List Mention
  | [] => []
  | s :: rest => s.mentions ++ Block.mentions rest

end

/-- The names of the variables that a block declares or sets. -/
def Block.targets (b : Block α) : List String := (Block.mentions b).filterMap Mention.target?

theorem Expr.names_mentions (e : Expr α) : e.mentions.map Mention.name = e.names := by
  rw [mentions, List.map_map]
  exact List.map_id' e.names

mutual

theorem Stmt.names_mentions : (s : Stmt α) → s.mentions.map Mention.name = s.names
  | .declare _ _ _ none => rfl
  | .declare _ x _ (some e) => congrArg (x :: ·) e.names_mentions
  | .assign _ x e => congrArg (x :: ·) e.names_mentions
  | .forLoop _ x a b body => by
    rw [Stmt.mentions, List.map_cons, List.map_append, List.map_append, a.names_mentions,
      b.names_mentions, Block.names_mentions body]
    rfl
  | .ifThen _ c body => by
    rw [Stmt.mentions, List.map_append, c.names_mentions, Block.names_mentions body, Stmt.names]
  | .ifElse _ c body otherwise => by
    rw [Stmt.mentions, List.map_append, List.map_append, c.names_mentions,
      Block.names_mentions body, Block.names_mentions otherwise, Stmt.names]
  | .print _ e => e.names_mentions
  | .read .. => rfl
  | .assert _ c => c.names_mentions

/-- The names that are mentioned are all names, in the same order. -/
theorem Block.names_mentions : (b : Block α) →
    (Block.mentions b).map Mention.name = Block.names b
  | [] => rfl
  | s :: rest => by
    rw [Block.mentions, List.map_append, s.names_mentions, Block.names_mentions rest, Block.names]

end

end MiniPL
