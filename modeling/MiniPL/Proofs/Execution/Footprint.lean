import MiniPL.Proofs.Execution.Simulation
import MiniPL.Proofs.Syntax.Mentions

/-!
# What a run does to the variables

A run touches variables only where the program mentions them: it declares them anew, gives them
values, and takes their values. So a property of the variables holds to the end of a run, whether
that is the end of the program or not, if it is kept by what may be done at each mention
(`Store.Stable`, `Block.keeps_exec`). The run ends at a variable that holds nothing only if the
property leaves that open (`Run.Result.Keeps`).

For instance, all variables stay what they are, in their places, but for the targets of the program
(`Block.retains_exec`).
-/

namespace MiniPL

variable {α β γ : Type} {X Y : List String}

/-! ## Why there is no value -/

/-- If there is no value, then not for want of the value of a variable other than those of `Y`. -/
def Halt.Bounds (Y : List String) (value : Except Halt β) : Prop :=
  ∀ h, value = .error h → h.Within Y

namespace Halt

theorem bounds_ok (b : β) : Bounds Y (.ok b) := nofun

theorem bounds_error {h : Halt} (hY : h.Within Y) : Bounds (β := β) Y (.error h) := by
  intro h' heq
  cases heq
  exact hY

theorem Bounds.bind {x : Except Halt β} {k : β → Except Halt γ} (hx : Bounds Y x)
    (hk : ∀ b, Bounds Y (k b)) : Bounds Y (x >>= k) := by
  cases x with
  | ok b => exact hk b
  | error h => exact bounds_error (hx h rfl)

theorem Alike.bounds {g : Pos → Pos} {x x' : Except Halt β} (h : Alike g Y x x') :
    Bounds Y x := by
  cases h with
  | ok b => exact bounds_ok b
  | error hx => exact bounds_error hx

end Halt

section Evaluation

variable {σ : Store VarType}

mutual

theorem Operand.bounds_eval : (o : Operand α) → (∀ x ∈ o.names, σ.value? x = none → x ∈ Y) →
    Halt.Bounds Y (o.eval σ)
  | .literal _ l, _ => (l.eval_alike (g := id)).bounds
  | .var _ x, h => by
    rw [Operand.eval]
    split
    · exact Halt.bounds_ok _
    · next hx => exact Halt.bounds_error (h x (List.mem_singleton.2 rfl) hx)
  | .group _ e, h => e.bounds_eval h

/-- An evaluation only ends at a variable of the expression that holds nothing. -/
theorem Expr.bounds_eval : (e : Expr α) → (∀ x ∈ e.names, σ.value? x = none → x ∈ Y) →
    Halt.Bounds Y (e.eval σ)
  | .single _ o, h => o.bounds_eval h
  | .negation _ _ o, h => (o.bounds_eval h).bind fun _ => Halt.bounds_ok _
  | .binary _ l op p r, h => by
    obtain ⟨hl, hr⟩ := List.forall_mem_append.1 h
    exact (l.bounds_eval hl).bind fun a => (r.bounds_eval hr).bind fun b =>
      (op.apply_alike (g := id) _ p a b).bounds

end

end Evaluation

/-! ## Properties that are kept -/

variable {M : List Mention} {P : Store VarType → Prop}

/-- The property is kept by whatever is done at the mentions `M`. A variable that has its value
    taken there holds one, unless it is one of `Y`. -/
structure Store.Stable (M : List Mention) (Y : List String) (P : Store VarType → Prop) : Prop where
  declare {σ : Store VarType} {x : String} {ty : Ty} : .declare x ty ∈ M → P σ →
    ∀ value, P (σ.declare x (.known ty) value)
  set {σ : Store VarType} {x : String} : .set x ∈ M → P σ →
    ∀ v, P (σ.modify x fun c => { c with value := some v })
  get {σ : Store VarType} {x : String} : .get x ∈ M → P σ → σ.value? x = none → x ∈ Y

/-- The variables have the property after a part of a run. If the run ends there for want of the
    value of a variable, that is one of `Y`. -/
structure Run.Result.Keeps (Y : List String) (P : Store VarType → Prop) (result : Run.Result) :
    Prop where
  store : P result.run.store
  within : ∀ h ∈ result.halt?, h.Within Y

namespace Run

variable {r : Run} {x : String}

theorem Result.Keeps.andThen {result : Result} {k : Run → Result} (h : result.Keeps Y P)
    (hk : ∀ r, P r.store → (k r).Keeps Y P) : (result.andThen k).Keeps Y P := by
  obtain ⟨r, _ | halt⟩ := result
  · exact hk r h.store
  · exact h

theorem keeps_goOn (h : P r.store) : r.goOn.Keeps Y P := ⟨h, nofun⟩

theorem keeps_stop {halt : Halt} (h : P r.store) (hhalt : halt.Within Y) :
    (r.stop halt).Keeps Y P :=
  ⟨h, fun _ heq => Option.some.inj heq ▸ hhalt⟩

theorem keeps_withValue {value : Except Halt β} {k : β → Result} (h : P r.store)
    (hv : Halt.Bounds Y value) (hk : ∀ b, (k b).Keeps Y P) : (r.withValue value k).Keeps Y P := by
  cases value with
  | ok b => exact hk b
  | error halt => exact keeps_stop h (hv halt rfl)

theorem keeps_write (h : P r.store) (v : Value) : (r.write v).Keeps Y P := by
  rw [write]
  split
  · exact keeps_goOn h
  · exact keeps_stop h trivial

theorem store_takeLine (r : Run) : r.takeLine.2.store = r.store := by
  rw [takeLine]
  split <;> rfl

end Run

namespace Store.Stable

open Run

variable {r : Run} {x : String} (hP : Stable M Y P)
include hP

theorem bounds_eval {σ : Store VarType} {e : Expr α} (he : e.mentions ⊆ M) (h : P σ) :
    Halt.Bounds Y (e.eval σ) :=
  e.bounds_eval fun _ hx => hP.get (he (List.mem_map_of_mem hx)) h

theorem assign (hx : .set x ∈ M) (h : P r.store) (v : Value) : (r.assign x v).Keeps Y P := by
  rw [Run.assign, Store.assign?]
  by_cases hc : r.store.contains x
  · rw [if_pos hc]
    exact keeps_goOn (hP.set hx h v)
  · rw [if_neg hc]
    exact keeps_stop h trivial

theorem input (hx : .set x ∈ M) (h : P r.store) (p : Pos) : (r.input x p).Keeps Y P := by
  have hnext : P r.takeLine.2.store := r.store_takeLine.symm ▸ h
  rw [Run.input]
  dsimp only
  split
  · exact keeps_withValue hnext (Simulation.integer_alike (g := id) _ p).bounds fun v =>
      hP.assign hx hnext v
  · exact hP.assign hx hnext _

theorem repeated {body : Run → Result} (hx : .set x ∈ M)
    (hbody : ∀ r, P r.store → (body r).Keeps Y P) (turns : Nat) :
    ∀ (k : Int) (r : Run), P r.store → (Run.repeated x body turns k r).Keeps Y P := by
  induction turns with
  | zero => exact fun k r h => keeps_goOn h
  | succ turns ih =>
    intro k r h
    rw [Run.repeated_succ]
    exact (hP.assign hx h (.int k)).andThen fun s hs =>
      (hbody s hs).andThen fun t ht => ih (k + 1) t ht

theorem counting {body : Run → Result} (hx : .set x ∈ M)
    (hbody : ∀ r, P r.store → (body r).Keeps Y P) (first last : Value) (h : P r.store) :
    (Run.counting x first last body r).Keeps Y P := by
  unfold Run.counting
  split
  · exact hP.repeated hx hbody _ _ r h
  · exact keeps_stop h trivial

end Store.Stable

mutual

theorem Stmt.keeps_exec (hP : Store.Stable M Y P) (s : Stmt α) (hs : s.mentions ⊆ M) {r : Run}
    (h : P r.store) : (s.exec r).Keeps Y P := by
  have hlog : P (r.log (.executing s.title s.pos)).store := h
  cases s with
  | declare p x ty init =>
    cases init with
    | none => exact Run.keeps_goOn (hP.declare (hs (List.mem_singleton.2 rfl)) h none)
    | some e =>
      obtain ⟨hx, he⟩ := List.cons_subset.1 hs
      exact Run.keeps_withValue hlog (hP.bounds_eval he h) fun v =>
        Run.keeps_goOn (hP.declare hx h (some v))
  | assign p x e =>
    obtain ⟨hx, he⟩ := List.cons_subset.1 hs
    exact Run.keeps_withValue hlog (hP.bounds_eval he h) fun v => hP.assign hx hlog v
  | forLoop p x a b body =>
    obtain ⟨hx, hs⟩ := List.cons_subset.1 hs
    obtain ⟨hs, hbody⟩ := List.append_subset.1 hs
    obtain ⟨ha, hb⟩ := List.append_subset.1 hs
    exact Run.keeps_withValue hlog (hP.bounds_eval ha h) fun first =>
      Run.keeps_withValue hlog (hP.bounds_eval hb h) fun last =>
        hP.counting hx (fun _ hr => Block.keeps_exec hP body hbody hr) first last hlog
  | ifThen p c body =>
    obtain ⟨hc, hbody⟩ := List.append_subset.1 hs
    refine Run.keeps_withValue hlog (hP.bounds_eval hc h) fun v => ?_
    split
    · exact Block.keeps_exec hP body hbody hlog
    · exact Run.keeps_goOn hlog
  | ifElse p c body otherwise =>
    obtain ⟨hs, hotherwise⟩ := List.append_subset.1 hs
    obtain ⟨hc, hbody⟩ := List.append_subset.1 hs
    refine Run.keeps_withValue hlog (hP.bounds_eval hc h) fun v => ?_
    split
    · exact Block.keeps_exec hP body hbody hlog
    · exact Block.keeps_exec hP otherwise hotherwise hlog
  | print p e =>
    exact Run.keeps_withValue hlog (hP.bounds_eval hs h) fun v => Run.keeps_write hlog v
  | read p x => exact hP.input (hs (List.mem_singleton.2 rfl)) hlog p
  | assert p c =>
    refine Run.keeps_withValue hlog (hP.bounds_eval hs h) fun v => ?_
    split
    · exact Run.keeps_goOn hlog
    · exact Run.keeps_stop hlog trivial
termination_by structural s

/-- A property that is kept at all mentions of a block is kept by a run of the block. -/
theorem Block.keeps_exec (hP : Store.Stable M Y P) (b : Block α) (hb : Block.mentions b ⊆ M)
    {r : Run} (h : P r.store) : (Block.exec b r).Keeps Y P := by
  cases b with
  | nil => exact Run.keeps_goOn h
  | cons s rest =>
    obtain ⟨hs, hrest⟩ := List.append_subset.1 hb
    rw [Block.exec_cons]
    exact (Stmt.keeps_exec hP s hs h).andThen fun _ hr => Block.keeps_exec hP rest hrest hr
termination_by structural b

end

/-! ## Variables that are no targets -/

section Targets

variable {σ τ : Store VarType} {x : String}

/-- All variables of `σ` but those of `X` are the same in `τ`, and in the same places. -/
def Store.Retains (X : List String) (σ τ : Store VarType) : Prop :=
  ∀ ⦃i : Nat⦄ ⦃x c⦄, σ.entries[i]? = some (x, c) → x ∉ X → τ.entries[i]? = some (x, c)

namespace Store

/-- Variables keep their places if others come after them. -/
theorem Retains.of_append (h : σ.Retains X τ) {τ' : Store VarType} {extra}
    (hτ' : τ'.entries = τ.entries ++ extra) : σ.Retains X τ' := by
  intro i y c hi hy
  have hτ := h hi hy
  rw [hτ', List.getElem?_append_left (List.getElem?_eq_some_iff.1 hτ).1, hτ]

theorem Retains.modify (h : σ.Retains X τ) (hx : x ∈ X) (f : Cell VarType → Cell VarType) :
    σ.Retains X (τ.modify x f) := by
  intro i y c hi hy
  have hne : y ≠ x := fun heq => hy (heq ▸ hx)
  simp [Store.modify, h hi hy, hne]

theorem Retains.declare (h : σ.Retains X τ) (hx : x ∈ X) (ty : VarType) (value : Option Value) :
    σ.Retains X (τ.declare x ty value) := by
  rw [Store.declare]
  split
  · exact h.modify hx _
  · exact h.of_append rfl

end Store

theorem Block.stable_retains (b : Block α) (σ : Store VarType) :
    Store.Stable (Block.mentions b) (Block.names b) (σ.Retains (Block.targets b)) where
  declare hx h := h.declare (List.mem_filterMap.2 ⟨_, hx, rfl⟩) _
  set hx h _ := h.modify (List.mem_filterMap.2 ⟨_, hx, rfl⟩) _
  get hx _ _ := Block.names_mentions b ▸ List.mem_map_of_mem (f := Mention.name) hx

/-- A run leaves all variables as they are but those that the block declares or sets. -/
theorem Block.retains_exec (b : Block α) {r : Run} (h : σ.Retains (Block.targets b) r.store) :
    σ.Retains (Block.targets b) (Block.exec b r).run.store :=
  (Block.keeps_exec (b.stable_retains σ) b (List.Subset.refl _) h).store

end Targets

end MiniPL
