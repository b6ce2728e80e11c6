import MiniPL.Syntax

/-!
# Types of variables

A program only declares variables of the types of the language. Whoever runs it may
have declared variables before, also of types with other names. Nothing in the
language takes values of such a type or makes them, but they can be copied, written
and overwritten by input.
-/

namespace MiniPL

/-- All types of the language. -/
def Ty.all : List Ty := [int, string, bool]

/-- The type of the language with a name. -/
def Ty.ofText? (name : String) : Option Ty := all.find? (·.text = name)

/-- The name of a type leads back to it. -/
theorem Ty.ofText?_text (ty : Ty) : ofText? ty.text = some ty := by
  cases ty <;> decide

/-- The name that leads to a type is its name. -/
theorem Ty.text_of_ofText? {name : String} {ty : Ty} (h : ofText? name = some ty) :
    ty.text = name := by
  simpa using List.find?_some h

/-- The type of a variable: one of the language, or one with another name. -/
inductive VarType
  | known (ty : Ty)
  | foreign (name : String) (unknown : Ty.ofText? name = none)
  deriving DecidableEq, Repr

namespace VarType

/-- The type of integers. -/
@[match_pattern] abbrev int : VarType := known .int

/-- The type of texts. -/
@[match_pattern] abbrev string : VarType := known .string

/-- The type of truth values. -/
@[match_pattern] abbrev bool : VarType := known .bool

/-- The name of a type. -/
def text : VarType → String
  | known ty => ty.text
  | foreign name _ => name

/-- The type with a name. -/
def ofText (name : String) : VarType :=
  match h : Ty.ofText? name with
  | some ty => known ty
  | none => foreign name h

@[simp] theorem text_ofText (name : String) : (ofText name).text = name := by
  unfold ofText
  split
  · next h => exact Ty.text_of_ofText? h
  · rfl

@[simp] theorem ofText_text (ty : VarType) : ofText ty.text = ty := by
  unfold ofText
  split
  · next t h =>
    cases ty with
    | known ty => exact congrArg known (Option.some.inj (h.symm.trans (Ty.ofText?_text ty)))
    | foreign name unknown => exact absurd (h.symm.trans unknown) (by simp)
  · next h =>
    cases ty with
    | known ty => exact absurd ((Ty.ofText?_text ty).symm.trans h) (by simp)
    | foreign name unknown => rfl

/-- Types with the same name are the same. -/
theorem text_injective {a b : VarType} (h : a.text = b.text) : a = b := by
  rw [← ofText_text a, h, ofText_text]

end VarType

end MiniPL
