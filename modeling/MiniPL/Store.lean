import MiniPL.Value

/-!
# Stores

A store is the table of the variables there are: for each, its type and what it
holds. Names are in the order in which they were first declared, and no name is there
twice; a name that is declared again keeps its place.

Types are those of variables (`VarType`) wherever programs run; the table itself works
with any.

* `Store.find?`: a variable by its name;
* `Store.declare`: makes a variable, in place of one with that name;
* `Store.assign?`: changes what a variable holds, if there is such a variable.
-/

namespace MiniPL

/-- A variable: its type, and what it holds. -/
structure Cell (τ : Type) where
  ty : τ
  value : Option Value
  deriving DecidableEq, Repr

/-- A table of variables. -/
structure Store (τ : Type) where
  entries : List (String × Cell τ)
  nodup_names : (entries.map Prod.fst).Nodup

namespace Store

variable {τ : Type}

/-- The store without variables. -/
def empty : Store τ := ⟨[], by simp⟩

/-- The names, in order. -/
def names (σ : Store τ) : List String := σ.entries.map Prod.fst

/-- How many variables there are. -/
def size (σ : Store τ) : Nat := σ.entries.length

/-- The variable with a name. -/
def find? (σ : Store τ) (x : String) : Option (Cell τ) :=
  (σ.entries.find? (·.1 = x)).map Prod.snd

/-- Whether there is a variable with a name. -/
def contains (σ : Store τ) (x : String) : Bool := (σ.find? x).isSome

/-- The type of the variable with a name. -/
def ty? (σ : Store τ) (x : String) : Option τ := (σ.find? x).map Cell.ty

/-- What the variable with a name holds, if there is one and it holds something. -/
def value? (σ : Store τ) (x : String) : Option Value := (σ.find? x).bind Cell.value

theorem contains_iff {σ : Store τ} {x : String} : σ.contains x ↔ x ∈ σ.names := by
  simp [contains, find?, names, List.find?_isSome]

theorem find?_eq_none_iff {σ : Store τ} {x : String} : σ.find? x = none ↔ x ∉ σ.names := by
  rw [← contains_iff, contains, Bool.not_eq_true, Option.isSome_eq_false_iff,
    Option.isNone_iff_eq_none]

/-- The store in which the variable `x`, if there is one, is changed by `f`. -/
def modify (σ : Store τ) (x : String) (f : Cell τ → Cell τ) : Store τ where
  entries := σ.entries.map fun e => if e.1 = x then (e.1, f e.2) else e
  nodup_names := by
    have h : (Prod.fst ∘ fun e : String × Cell τ => if e.1 = x then (e.1, f e.2) else e) =
        Prod.fst := by
      funext e
      simp only [Function.comp_apply]
      split <;> rfl
    rw [List.map_map, h]
    exact σ.nodup_names

@[simp] theorem names_modify (σ : Store τ) (x : String) (f : Cell τ → Cell τ) :
    (σ.modify x f).names = σ.names := by
  simp only [names, modify, List.map_map]
  refine List.map_congr_left fun e _ => ?_
  simp only [Function.comp_apply]
  split <;> rfl

/-- Only the variable `x` changes. -/
theorem find?_modify (σ : Store τ) (x y : String) (f : Cell τ → Cell τ) :
    (σ.modify x f).find? y = if y = x then (σ.find? y).map f else σ.find? y := by
  simp only [find?, modify]
  induction σ.entries with
  | nil => simp
  | cons e rest ih =>
    obtain ⟨z, c⟩ := e
    rw [List.map_cons, List.find?_cons, List.find?_cons]
    by_cases hy : z = y
    · subst hy
      by_cases hx : z = x <;> simp [hx]
    · have hz : (if z = x then (z, f c) else (z, c)).1 = z := by split <;> rfl
      simpa only [hz, hy, decide_false] using ih

/-- The store with one more variable, the last one. -/
def append (σ : Store τ) (x : String) (c : Cell τ) (h : x ∉ σ.names) : Store τ where
  entries := σ.entries ++ [(x, c)]
  nodup_names := by
    rw [List.map_append, List.nodup_append]
    refine ⟨σ.nodup_names, by simp, fun a ha b hb => ?_⟩
    simp only [List.map_cons, List.map_nil, List.mem_singleton] at hb
    subst hb
    exact fun e => h (e ▸ ha)

theorem find?_append (σ : Store τ) (x y : String) (c : Cell τ) (h : x ∉ σ.names) :
    (σ.append x c h).find? y = if y = x then some c else σ.find? y := by
  by_cases hy : y = x
  · subst hy
    have hnone : σ.find? y = none := find?_eq_none_iff.2 h
    rw [find?, Option.map_eq_none_iff] at hnone
    simp [find?, append, List.find?_append, hnone]
  · simp [find?, append, List.find?_append, hy, Ne.symm hy]

/-- The store in which `x` is declared. -/
def declare (σ : Store τ) (x : String) (ty : τ) (value : Option Value) : Store τ :=
  if h : x ∈ σ.names then σ.modify x fun _ => ⟨ty, value⟩ else σ.append x ⟨ty, value⟩ h

/-- A name that is there keeps its place, another one comes last. -/
theorem names_declare (σ : Store τ) (x : String) (ty : τ) (value : Option Value) :
    (σ.declare x ty value).names = if x ∈ σ.names then σ.names else σ.names ++ [x] := by
  unfold declare
  split
  · simp
  · simp [append, names]

/-- A declared variable is what its declaration says, whatever was there before. -/
theorem find?_declare (σ : Store τ) (x y : String) (ty : τ) (value : Option Value) :
    (σ.declare x ty value).find? y = if y = x then some ⟨ty, value⟩ else σ.find? y := by
  unfold declare
  split
  · next h =>
    obtain ⟨c, hc⟩ := Option.isSome_iff_exists.1 (contains_iff.2 h)
    rw [find?_modify]
    split
    · next hy => rw [hy, hc, Option.map_some]
    · rfl
  · exact find?_append ..

/-- The store in which `x` holds `value`, if there is such a variable. -/
def assign? (σ : Store τ) (x : String) (value : Option Value) : Option (Store τ) :=
  if σ.contains x then some (σ.modify x fun c => { c with value }) else none

/-- The variables in the order of their names. -/
def sorted (σ : Store τ) : List (String × Cell τ) :=
  σ.entries.mergeSort fun a b => a.1 ≤ b.1

/-- The store of a list of declarations. -/
def ofList (declarations : List (String × τ × Option Value)) : Store τ :=
  declarations.foldl (fun σ d => σ.declare d.1 d.2.1 d.2.2) empty

/-- How the variable with a name is listed, with types written by `text`. -/
def listing (text : τ → String) (σ : Store τ) (x : String) : String :=
  let ty := (σ.ty? x).elim "None" text
  s!"Symbol({ty}, {Value.listing (σ.value? x)})"

end Store

end MiniPL
