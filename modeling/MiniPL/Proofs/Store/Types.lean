import MiniPL.Store

/-!
# Stores and the types of their variables

The signature of a store is what its declarations say: the names with their types, in
order. A variable may be given another value of its type, or be declared again with
that type: the signature stays (`Store.signature_declare`), and so does that all
variables hold values of their types (`Store.Fits`).

A value is of a type (`Value.OfType`) if a variable of the type may hold it. A text may
stand in for a truth value, as input is stored in a `bool` as it is; that it does not is
the *strict* reading. Types that are not of the language have any values.
-/

namespace MiniPL

/-- Whether a value is of a type; a text is no truth value if `strict`. -/
def Value.OfType (strict : Bool) (v : Value) (ty : VarType) : Prop :=
  ∀ t, ty = .known t → Value.fits ty v ∧ (strict → t = .bool → ∃ b, v = .bool b)

namespace Value

variable {strict : Bool} {v : Value}

theorem ofType_int_iff : v.OfType strict .int ↔ ∃ n, v = .int n := by
  cases v <;> simp [OfType, fits]

theorem ofType_string_iff : v.OfType strict .string ↔ ∃ s, v = .text s := by
  cases v <;> simp [OfType, fits]

theorem ofType_bool (b : Bool) : (Value.bool b).OfType strict .bool := by
  simp [OfType, fits]

theorem ofType_text {s : String} {ty : VarType} (hint : ty ≠ .int)
    (hbool : strict → ty ≠ .bool) : (Value.text s).OfType strict ty := by
  rintro t rfl
  cases t with
  | int => exact absurd rfl hint
  | string => simp [fits]
  | bool => exact ⟨rfl, fun hs => absurd rfl (hbool hs)⟩

end Value

namespace Store

section Signature

variable {τ : Type} {σ : Store τ} {x : String}

/-- The names with their types, in order. -/
def signature (σ : Store τ) : List (String × τ) := σ.entries.map fun e => (e.1, e.2.ty)

/-- The signature says which types the variables have. -/
theorem ty?_eq_find?_signature (σ : Store τ) (x : String) :
    σ.ty? x = (σ.signature.find? (·.1 = x)).map Prod.snd := by
  simp only [ty?, find?, signature, List.find?_map, Option.map_map]
  rfl

theorem ty?_congr {σ' : Store τ} (h : σ.signature = σ'.signature) : σ.ty? = σ'.ty? := by
  funext x
  rw [ty?_eq_find?_signature, ty?_eq_find?_signature, h]

/-- An entry is found by its name. -/
theorem find?_eq_of_mem {c : Cell τ} (h : (x, c) ∈ σ.entries) : σ.find? x = some c := by
  obtain ⟨entries, hnodup⟩ := σ
  simp only [find?]
  induction entries with
  | nil => cases h
  | cons e rest ih =>
    rw [List.map_cons, List.nodup_cons] at hnodup
    rcases List.mem_cons.1 h with rfl | h
    · simp
    · -- The names are distinct, so the entries before that of `x` have other ones.
      have hne : e.1 ≠ x := by
        rintro rfl
        exact hnodup.1 (List.mem_map.2 ⟨_, h, rfl⟩)
      simpa [hne] using ih hnodup.2 h

theorem signature_modify {f : Cell τ → Cell τ}
    (hf : ∀ c, σ.find? x = some c → (f c).ty = c.ty) :
    (σ.modify x f).signature = σ.signature := by
  simp only [signature, modify, List.map_map]
  refine List.map_congr_left fun e he => ?_
  simp only [Function.comp_apply]
  split
  · next hx => rw [hf e.2 (find?_eq_of_mem (hx ▸ he))]
  · rfl

/-- A declaration with the type that the variable has already keeps all names, types and
    places. -/
theorem signature_declare {ty : τ} (h : σ.ty? x = some ty) (value : Option Value) :
    (σ.declare x ty value).signature = σ.signature := by
  obtain ⟨c, hc, hty⟩ := Option.map_eq_some_iff.1 h
  have hx : x ∈ σ.names := contains_iff.1 (by simp [contains, hc])
  -- The variable is there, so it is replaced where it stands.
  rw [declare, dif_pos hx]
  refine signature_modify fun d hd => ?_
  rw [hc, Option.some.injEq] at hd
  exact hd ▸ hty.symm

end Signature

/-! ## Values of the right types -/

variable {strict : Bool} {σ : Store VarType} {x : String} {ty : VarType} {value : Option Value}

/-- Whether all variables hold values of their types; no `bool` holds a text if
    `strict`. -/
def Fits (strict : Bool) (σ : Store VarType) : Prop :=
  ∀ ⦃x ty v⦄, σ.find? x = some ⟨ty, some v⟩ → v.OfType strict ty

theorem fits_empty : Fits strict empty := fun _ _ _ h => nomatch h

theorem Fits.declare (hσ : σ.Fits strict) (hv : ∀ v ∈ value, v.OfType strict ty) :
    (σ.declare x ty value).Fits strict := by
  intro y t v hy
  rw [find?_declare] at hy
  split at hy
  · cases hy
    exact hv v rfl
  · exact hσ hy

/-- A variable that is there can be given any value of its type. -/
theorem Fits.exists_assign? (hσ : σ.Fits strict) (hx : σ.ty? x = some ty) {v : Value}
    (hv : v.OfType strict ty) :
    ∃ σ', σ.assign? x (some v) = some σ' ∧ σ'.signature = σ.signature ∧ σ'.Fits strict := by
  obtain ⟨c, hc, rfl⟩ := Option.map_eq_some_iff.1 hx
  refine ⟨_, if_pos (by simp [contains, hc]), signature_modify fun _ _ => rfl, ?_⟩
  intro y t w hy
  rw [find?_modify] at hy
  split at hy
  · next hyx =>
    subst hyx
    rw [hc, Option.map_some] at hy
    cases hy
    exact hv
  · exact hσ hy

end Store

end MiniPL
