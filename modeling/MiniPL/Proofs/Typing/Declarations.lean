import MiniPL.Proofs.Store.Types
import MiniPL.Proofs.Typing.Whole

/-!
# What a program declares

The check of a program adds its declarations (`Block.declarations`) to the variables that there
are. Whatever faults it finds, variables that are there keep their types and places
(`Block.signature_isPrefix_extend`). If it finds none, all declarations are new, and they come
after the variables that were there, in the order of the text, and hold nothing
(`Block.entries_extend`).
-/

namespace MiniPL

variable {α : Type}

mutual

/-- The names that a statement declares, with their types, in the order of the text. -/
def Stmt.declarations : Stmt α → List (String × VarType)
  | .declare _ x ty _ => [(x, .known ty)]
  | .assign .. => []
  | .forLoop _ _ _ _ body => Block.declarations body
  | .ifThen _ _ body => Block.declarations body
  | .ifElse _ _ body otherwise => Block.declarations body ++ Block.declarations otherwise
  | .print .. => []
  | .read .. => []
  | .assert .. => []

/-- The names that a block declares, with their types, in the order of the text. -/
def Block.declarations : Block α → List (String × VarType)
  | [] => []
  | s :: rest => s.declarations ++ Block.declarations rest

end

/-- A new variable comes last, and holds nothing. -/
theorem Store.entries_declareNew (σ : Store VarType) (x : String) (ty : Ty) :
    (σ.declareNew x ty).entries =
      σ.entries ++ if σ.contains x then [] else [(x, ⟨.known ty, none⟩)] := by
  unfold declareNew
  split
  · exact (List.append_nil _).symm
  · next hx =>
    rw [declare, dif_neg fun h => hx (contains_iff.2 h)]
    rfl

theorem Store.signature_declareNew (σ : Store VarType) (x : String) (ty : Ty) :
    (σ.declareNew x ty).signature =
      σ.signature ++ if σ.contains x then [] else [(x, .known ty)] := by
  rw [signature, entries_declareNew, List.map_append, signature]
  split <;> rfl

mutual

theorem Stmt.signature_isPrefix_extend (σ : Store VarType) :
    (s : Stmt α) → σ.signature <+: (s.extend σ).signature
  | .declare _ x ty _ => by
    rw [Stmt.extend, Store.signature_declareNew σ x ty]
    exact List.prefix_append ..
  | .assign .. => List.prefix_rfl
  | .forLoop _ _ _ _ body => Block.signature_isPrefix_extend σ body
  | .ifThen _ _ body => Block.signature_isPrefix_extend σ body
  | .ifElse _ _ body otherwise =>
    (Block.signature_isPrefix_extend σ body).trans (Block.signature_isPrefix_extend _ otherwise)
  | .print .. => List.prefix_rfl
  | .read .. => List.prefix_rfl
  | .assert .. => List.prefix_rfl

/-- Variables that are there keep their types and places, and new ones come after them. -/
theorem Block.signature_isPrefix_extend (σ : Store VarType) :
    (b : Block α) → σ.signature <+: (Block.extend σ b).signature
  | [] => List.prefix_rfl
  | s :: rest =>
    (s.signature_isPrefix_extend σ).trans (Block.signature_isPrefix_extend (s.extend σ) rest)

end

/-- Declarations, as variables that hold nothing. -/
def Store.uninitialized (declarations : List (String × VarType)) :
    List (String × Cell VarType) :=
  declarations.map fun d => (d.1, ⟨d.2, none⟩)

theorem Store.uninitialized_append (ds ds' : List (String × VarType)) :
    uninitialized (ds ++ ds') = uninitialized ds ++ uninitialized ds' :=
  List.map_append

mutual

theorem Stmt.entries_extend {σ : Store VarType} {s : Stmt α} (h : s.faults σ = []) :
    (s.extend σ).entries = σ.entries ++ Store.uninitialized s.declarations := by
  cases s with
  | declare p x ty init =>
    have hx : σ.contains x = false := by
      cases init with
      | none => simpa [Stmt.faults] using h
      | some e =>
        simp only [Stmt.faults, List.append_eq_nil_iff] at h
        simpa using h.1.1
    rw [Stmt.extend, Store.entries_declareNew σ x ty, hx, if_neg Bool.false_ne_true]
    rfl
  | forLoop p x a b body =>
    simp only [Stmt.faults, List.append_eq_nil_iff] at h
    exact Block.entries_extend h.2
  | ifThen p c body =>
    simp only [Stmt.faults, List.append_eq_nil_iff] at h
    exact Block.entries_extend h.2
  | ifElse p c body otherwise =>
    simp only [Stmt.faults, List.append_eq_nil_iff] at h
    rw [Stmt.extend, Block.entries_extend h.2, Block.entries_extend h.1.2,
      Stmt.declarations, Store.uninitialized_append, List.append_assoc]
  | assign | print | read | assert => exact (List.append_nil _).symm
termination_by structural s

/-- After a check without faults, the declarations of the block come after what was there, and
    hold nothing. -/
theorem Block.entries_extend {σ : Store VarType} {b : Block α} (h : Block.faults σ b = []) :
    (Block.extend σ b).entries = σ.entries ++ Store.uninitialized (Block.declarations b) := by
  cases b with
  | nil => exact (List.append_nil _).symm
  | cons s rest =>
    rw [Block.faults, List.append_eq_nil_iff] at h
    rw [Block.extend, Block.entries_extend h.2, Stmt.entries_extend h.1, Block.declarations,
      Store.uninitialized_append, List.append_assoc]
termination_by structural b

end

end MiniPL
