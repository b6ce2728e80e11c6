import MiniPL.Failure
import MiniPL.Proofs.Syntax.Parts
import MiniPL.Proofs.Text.Pieces
import MiniPL.Proofs.Typing.Whole

/-!
# Messages in one line

A diagnostic is written in one line if its message is (`Diagnostic.inline_text`). Most messages
are. Those that tell of names and types are if these are (`SemanticFault.inline_message`,
`RuntimeFault.inline_message`); in a semantic fault they are, if the names in the program are and
the types of the variables that it is checked on (`Block.inline_faults`).
-/

namespace MiniPL

open MiniPL.Text (Inline inline_append inline_int inline_intercalate)

variable {α : Type}

/-! ## Messages -/

theorem Kind.inline_label (k : Kind) : Inline k.label := by
  rcases k with s | k | _
  · cases s <;> decide
  · cases k <;> decide
  all_goals decide

theorem LexicalFault.inline_message (f : LexicalFault) : Inline f.message := by
  cases f
  · exact (by decide : Inline "Source file is empty")
  · exact (by decide : Inline "Invalid char error")
  · exact (by decide : Inline "Unterminated string")
  · exact (by decide : Inline "Unrecognized escape sequence")
  · exact (by decide : Inline "Illegal char sequence")
  · exact (by decide : Inline "Unenclosed comment")
  · exact (by decide : Inline "Expected \"..\", got \".\" instead")

namespace SyntaxFault

theorem message_unexpected_nil (found : Kind) :
    (unexpected found []).message = "Unexpected token " ++ found.label := rfl

theorem message_unexpected_cons (found k : Kind) (ks : List Kind) :
    (unexpected found (k :: ks)).message = "Unexpected token " ++ found.label ++ " (expected " ++
      " or ".intercalate ((k :: ks).map Kind.label) ++ ")" := rfl

theorem message_illegalStart (found : Kind) :
    (illegalStart found).message = "Illegal token " ++ found.label := rfl

theorem inline_message (f : SyntaxFault) : Inline f.message := by
  rcases f with ⟨found, _ | ⟨k, ks⟩⟩ | found | _ | _ | _
  · rw [message_unexpected_nil]
    exact inline_append.2 ⟨by decide, found.inline_label⟩
  · have hks : Inline (" or ".intercalate ((k :: ks).map Kind.label)) := by
      refine inline_intercalate (by decide) _ fun s hs => ?_
      obtain ⟨k, -, rfl⟩ := List.mem_map.1 hs
      exact k.inline_label
    rw [message_unexpected_cons]
    simp only [inline_append]
    exact ⟨⟨⟨⟨by decide, found.inline_label⟩, by decide⟩, hks⟩, by decide⟩
  · rw [message_illegalStart]
    exact inline_append.2 ⟨by decide, found.inline_label⟩
  · exact (by decide : Inline "Missing semicolon")
  · exact (by decide : Inline "Unexpected token EOF (expected END)")
  · exact (by decide : Inline "Expression nested too deeply")

end SyntaxFault

namespace SemanticFault

/-- Whether the names and types in a fault are in one line. -/
def Inline : SemanticFault → Prop
  | undeclared x => Text.Inline x
  | redeclared x => Text.Inline x
  | mismatch expected got => Text.Inline expected.text ∧ Text.Inline got.text
  | notAccepted _ ty => Text.Inline ty.text

theorem message_mismatch (expected got : VarType) : (mismatch expected got).message =
    "Type mismatch (expected " ++ expected.text ++ ", got " ++ got.text ++ ")" := rfl

theorem message_notAccepted (op : BinOp) (ty : VarType) : (notAccepted op ty).message =
    "Type mismatch (operator '" ++ op.symbol.text ++ "' does not accept " ++ ty.text ++ ")" := rfl

theorem inline_message {f : SemanticFault} (h : f.Inline) : Text.Inline f.message := by
  rcases f with x | x | ⟨expected, got⟩ | ⟨op, ty⟩
  · exact inline_append.2 ⟨by decide, h⟩
  · exact inline_append.2 ⟨by decide, h⟩
  · rw [message_mismatch]
    simp only [inline_append]
    exact ⟨⟨⟨⟨by decide, h.1⟩, by decide⟩, h.2⟩, by decide⟩
  · have hop : Text.Inline op.symbol.text := by cases op <;> decide
    have hty : Text.Inline ty.text := h
    rw [message_notAccepted]
    simp only [inline_append]
    exact ⟨⟨⟨⟨by decide, hop⟩, by decide⟩, hty⟩, by decide⟩

end SemanticFault

theorem RuntimeFault.inline_message {f : RuntimeFault}
    (h : ∀ x, f = .uninitialized x → Inline x) : Inline f.message := by
  cases f with
  | uninitialized x => exact inline_append.2 ⟨by decide, h x rfl⟩
  | divisionByZero => exact (by decide : Inline "Integer division by zero")
  | notAnInteger => exact (by decide : Inline "Input error: unable to cast input to int")
  | assertionFailed => exact (by decide : Inline "Assertion failed")

/-- With its message, a diagnostic is in one line. -/
theorem Diagnostic.inline_text {d : Diagnostic} (h : Inline d.message) : Inline d.text := by
  have hkind : Inline d.kind.label := by cases d.kind <;> decide
  have hcolon : Inline ": " := by decide
  unfold text
  split
  · simp only [inline_append]
    exact ⟨⟨hkind, hcolon⟩, h⟩
  · simp only [inline_append]
    exact ⟨⟨⟨⟨⟨⟨hkind, hcolon⟩, h⟩, by decide⟩, inline_int _⟩, by decide⟩, inline_int _⟩

/-! ## Names and types -/

/-- Whether the types of the variables are in one line. -/
def Store.Inline (σ : Store VarType) : Prop :=
  ∀ x ty, σ.ty? x = some ty → Text.Inline ty.text

theorem Store.inline_empty : (Store.empty : Store VarType).Inline := nofun

/-- Whether the names and types in faults are in one line. -/
def SemanticFault.AllInline (fs : List (Located SemanticFault)) : Prop :=
  ∀ f ∈ fs, f.thing.Inline

open SemanticFault (AllInline)

theorem SemanticFault.allInline_append {fs gs : List (Located SemanticFault)} :
    AllInline (fs ++ gs) ↔ AllInline fs ∧ AllInline gs :=
  List.forall_mem_append

theorem VarType.inline_known (ty : Ty) : Inline (known ty).text := by
  cases ty <;> decide

theorem VarType.allInline_expect {expected? got? : Option VarType} {p : Pos}
    (hexpected : ∀ ty, expected? = some ty → Inline ty.text)
    (hgot : ∀ ty, got? = some ty → Inline ty.text) :
    AllInline (VarType.expect expected? got? p) := by
  intro f hf
  unfold VarType.expect at hf
  split at hf
  · split at hf
    · cases hf
    · obtain rfl := List.mem_singleton.1 hf
      exact ⟨hexpected _ rfl, hgot _ rfl⟩
  · cases hf

theorem BinOp.allInline_faults {op : BinOp} {p q : Pos} {left? right? : Option VarType}
    (hleft : ∀ ty, left? = some ty → Inline ty.text)
    (hright : ∀ ty, right? = some ty → Inline ty.text) :
    AllInline (op.faults p left? right? q) := by
  intro f hf
  unfold BinOp.faults at hf
  split at hf
  · split at hf
    · obtain rfl := List.mem_singleton.1 hf
      exact ⟨hleft _ rfl, hright _ rfl⟩
    · split at hf
      · cases hf
      · obtain rfl := List.mem_singleton.1 hf
        exact hleft _ rfl
  · cases hf

theorem Store.allInline_require (σ : Store VarType) {x : String} (hx : Text.Inline x) (p : Pos) :
    AllInline (σ.require x p) := by
  intro f hf
  unfold require at hf
  split at hf
  · cases hf
  · obtain rfl := List.mem_singleton.1 hf
    exact hx

namespace Store.Inline

theorem declareNew {σ : Store VarType} (h : σ.Inline) (x : String) (ty : Ty) :
    (σ.declareNew x ty).Inline := by
  intro y t hy
  unfold Store.declareNew at hy
  split at hy
  · exact h y t hy
  · rw [ty?, find?_declare] at hy
    split at hy
    · cases hy
      exact VarType.inline_known ty
    · exact h y t hy

mutual

theorem operand {σ : Store VarType} (h : σ.Inline) :
    (o : Operand α) → ∀ ty, o.ty? σ = some ty → Text.Inline ty.text
  | .literal _ (.int _), _, rfl => VarType.inline_known .int
  | .literal _ (.text _), _, rfl => VarType.inline_known .string
  | .var _ x, ty, ho => h x ty ho
  | .group _ e, ty, ho => h.expr e ty ho

/-- The type of an expression is one of the language, or that of a variable. -/
theorem expr {σ : Store VarType} (h : σ.Inline) :
    (e : Expr α) → ∀ ty, e.ty? σ = some ty → Text.Inline ty.text
  | .single _ o, ty, he => h.operand o ty he
  | .negation .., _, rfl => VarType.inline_known .bool
  | .binary _ l op _ r, ty, he => by
    rw [Expr.ty?, BinOp.ty?] at he
    split at he
    · cases he
      exact VarType.inline_known .bool
    · rcases Option.or_eq_some_iff.1 he with he | ⟨-, he⟩
      · exact h.operand l ty he
      · exact h.operand r ty he

end

mutual

theorem stmt {σ : Store VarType} (h : σ.Inline) : (s : Stmt α) → (s.extend σ).Inline
  | .declare _ x ty _ => h.declareNew x ty
  | .assign .. => h
  | .forLoop _ _ _ _ body => h.block body
  | .ifThen _ _ body => h.block body
  | .ifElse _ _ body otherwise => (h.block body).block otherwise
  | .print .. => h
  | .read .. => h
  | .assert .. => h

/-- A program only declares variables with types of the language. -/
theorem block {σ : Store VarType} (h : σ.Inline) : (b : Block α) → (Block.extend σ b).Inline
  | [] => h
  | s :: rest => (h.stmt s).block rest

end

end Store.Inline

mutual

theorem Operand.inline_faults {σ : Store VarType} :
    (o : Operand α) → (∀ x ∈ o.names, Inline x) → σ.Inline → AllInline (o.faults σ)
  | .literal .., _, _ => nofun
  | .var p x, hx, _ => σ.allInline_require (hx x List.mem_cons_self) p
  | .group _ e, hx, h => e.inline_faults hx h

theorem Expr.inline_faults {σ : Store VarType} :
    (e : Expr α) → (∀ x ∈ e.names, Inline x) → σ.Inline → AllInline (e.faults σ)
  | .single _ o, hx, h => o.inline_faults hx h
  | .negation _ _ o, hx, h =>
    SemanticFault.allInline_append.2 ⟨o.inline_faults hx h,
      VarType.allInline_expect (fun | _, rfl => VarType.inline_known .bool) (h.operand o)⟩
  | .binary _ l op _ r, hx, h => by
    rw [Expr.names, List.forall_mem_append] at hx
    simp only [Expr.faults, SemanticFault.allInline_append]
    exact ⟨⟨l.inline_faults hx.1 h, r.inline_faults hx.2 h⟩,
      BinOp.allInline_faults (h.operand l) (h.operand r)⟩

end

/-- With a type of the language expected, both types in a fault of an expression are in one line. -/
theorem Store.Inline.allInline_expect {σ : Store VarType} (h : σ.Inline) (ty : Ty) (e : Expr α)
    (p : Pos) : AllInline (VarType.expect (some (.known ty)) (e.ty? σ) p) :=
  VarType.allInline_expect (fun | _, rfl => VarType.inline_known ty) (h.expr e)

mutual

theorem Stmt.inline_faults {σ : Store VarType} (s : Stmt α) (hx : ∀ x ∈ s.names, Inline x)
    (h : σ.Inline) : AllInline (s.faults σ) := by
  cases s with
  | declare p x ty init =>
    have hredeclared : AllInline (if σ.contains x then [⟨.redeclared x, p⟩] else []) := by
      intro f hf
      split at hf
      · obtain rfl := List.mem_singleton.1 hf
        exact hx x (by cases init <;> exact List.mem_cons_self)
      · cases hf
    cases init with
    | none => exact hredeclared
    | some e =>
      simp only [Stmt.faults, SemanticFault.allInline_append]
      have hτ := h.declareNew x ty
      exact ⟨⟨hredeclared, e.inline_faults (List.forall_mem_cons.1 hx).2 hτ⟩,
        hτ.allInline_expect ty e _⟩
  | assign p x e =>
    rw [Stmt.names, List.forall_mem_cons] at hx
    simp only [Stmt.faults, SemanticFault.allInline_append]
    exact ⟨⟨σ.allInline_require hx.1 p, e.inline_faults hx.2 h⟩,
      VarType.allInline_expect (h x) (h.expr e)⟩
  | forLoop p x a b body =>
    simp only [Stmt.names, List.forall_mem_cons, List.forall_mem_append] at hx
    obtain ⟨hx, ⟨ha, hb⟩, hbody⟩ := hx
    simp only [Stmt.faults, SemanticFault.allInline_append]
    exact ⟨⟨⟨⟨⟨⟨σ.allInline_require hx p,
      VarType.allInline_expect (fun | _, rfl => VarType.inline_known .int) (h x)⟩,
      a.inline_faults ha h⟩, b.inline_faults hb h⟩, h.allInline_expect .int a _⟩,
      h.allInline_expect .int b _⟩, Block.inline_faults body hbody h⟩
  | ifThen p c body =>
    simp only [Stmt.names, List.forall_mem_append] at hx
    simp only [Stmt.faults, SemanticFault.allInline_append]
    exact ⟨⟨c.inline_faults hx.1 h, h.allInline_expect .bool c _⟩,
      Block.inline_faults body hx.2 h⟩
  | ifElse p c body otherwise =>
    simp only [Stmt.names, List.forall_mem_append] at hx
    simp only [Stmt.faults, SemanticFault.allInline_append]
    exact ⟨⟨⟨c.inline_faults hx.1.1 h, h.allInline_expect .bool c _⟩,
      Block.inline_faults body hx.1.2 h⟩, Block.inline_faults otherwise hx.2 (h.block body)⟩
  | print p e => exact e.inline_faults hx h
  | read p x => exact σ.allInline_require (hx x List.mem_cons_self) p
  | assert p c =>
    simp only [Stmt.faults, SemanticFault.allInline_append]
    exact ⟨c.inline_faults hx h, h.allInline_expect .bool c _⟩
termination_by structural s

/-- The names in a fault come from the program, and the types from declarations. -/
theorem Block.inline_faults {σ : Store VarType} (b : Block α) (hx : ∀ x ∈ Block.names b, Inline x)
    (h : σ.Inline) : AllInline (Block.faults σ b) := by
  cases b with
  | nil => exact nofun
  | cons s rest =>
    rw [Block.names, List.forall_mem_append] at hx
    rw [Block.faults, SemanticFault.allInline_append]
    exact ⟨s.inline_faults hx.1 h, Block.inline_faults rest hx.2 (h.stmt s)⟩
termination_by structural b

end

end MiniPL
