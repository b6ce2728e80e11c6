import Mathlib.Data.Int.Range
import MiniPL.Proofs.Execution.Footprint
import MiniPL.Proofs.Typing.Naming

/-!
# Loops own their counters

A loop evaluates its bounds once, before anything else. From then on it only has numbers: it stores
one after another in its variable, and runs its block after each (`Run.Counts`). That is to run the
straight line of these actions (`Run.Counts.result_eq`), whatever the block does with the variable of
the loop, or with those of the bounds.

In a program that passes its check, the variable of a loop is there whenever a run comes to the loop,
and the block does not declare it (`Block.owned_loops`). So a loop is stopped by nothing but its
block, and its variable keeps the last number if the block does not set it
(`Block.counts_forLoop`).
-/

namespace MiniPL

variable {α : Type}

/-! ## Straight lines -/

namespace Run

variable {x : String} {body : Run → Result} {ks : List Int} {r s : Run} {starts : List Run}
  {result : Result}

theorem goOn_andThen (r : Run) (f : Run → Result) : r.goOn.andThen f = f r := rfl

theorem stop_andThen (r : Run) (halt : Halt) (f : Run → Result) :
    (r.stop halt).andThen f = r.stop halt :=
  rfl

/-- Does the actions one after another, up to the first one that ends the run. -/
def inOrder : List (Run → Result) → Run → Result
  | [], r => r.goOn
  | f :: fs, r => (f r).andThen (inOrder fs)

/-- The straight line of a loop: each number is stored in `x`, and `body` is run after it. -/
def straightLine (x : String) (body : Run → Result) (ks : List Int) : List (Run → Result) :=
  ks.flatMap fun k => [fun r => r.assign x (.int k), body]

theorem inOrder_straightLine_cons (x : String) (body : Run → Result) (k : Int) (ks : List Int)
    (r : Run) :
    inOrder (straightLine x body (k :: ks)) r =
      (r.assign x (.int k)).andThen fun s =>
        (body s).andThen (inOrder (straightLine x body ks)) :=
  rfl

/-- How a loop goes that stores numbers in `x`, one after another, and runs `body` after each: from
    a run, by way of the runs in which `body` is started, to a result. -/
inductive Counts (x : String) (body : Run → Result) : List Int → Run → List Run → Result → Prop
  | done (r : Run) : Counts x body [] r [] r.goOn
  | turn {k : Int} {ks : List Int} {r s t : Run} {starts : List Run} {result : Result} :
    r.assign x (.int k) = s.goOn → body s = t.goOn → Counts x body ks t starts result →
      Counts x body (k :: ks) r (s :: starts) result
  | stop {k : Int} {ks : List Int} {r s t : Run} {halt : Halt} :
    r.assign x (.int k) = s.goOn → body s = t.stop halt →
      Counts x body (k :: ks) r [s] (t.stop halt)

/-- A variable is set if it is there, and nothing else happens. -/
theorem assign_eq_goOn_iff {v : Value} :
    r.assign x v = s.goOn ↔ r.store.contains x ∧
      s = { r with store := r.store.modify x fun c => { c with value := some v } } := by
  rw [assign, Store.assign?]
  by_cases hx : r.store.contains x
  · rw [if_pos hx]
    exact ⟨fun h => ⟨hx, (congrArg Result.run h).symm⟩, fun h => h.2 ▸ rfl⟩
  · rw [if_neg hx]
    exact ⟨fun h => absurd (congrArg Result.halt? h) (Option.some_ne_none _),
      fun h => absurd h.1 hx⟩

/-- A variable that is there can be set. -/
theorem exists_assign_eq (hx : r.store.contains x) (v : Value) :
    ∃ s : Run, r.assign x v = s.goOn ∧ s.store.contains x := by
  refine ⟨_, assign_eq_goOn_iff.2 ⟨hx, rfl⟩, ?_⟩
  rw [Store.contains_iff] at hx ⊢
  rwa [Store.names_modify]

/-- A variable that has been set keeps its type, and holds the value. No other one changes. -/
theorem find?_of_assign {v : Value} {ty : VarType} (hx : r.store.ty? x = some ty)
    (h : r.assign x v = s.goOn) (y : String) :
    s.store.find? y = if y = x then some ⟨ty, some v⟩ else r.store.find? y := by
  obtain ⟨-, rfl⟩ := assign_eq_goOn_iff.1 h
  obtain ⟨c, hc, rfl⟩ := Option.map_eq_some_iff.1 hx
  rw [Store.find?_modify]
  split
  · next hy => rw [hy, hc, Option.map_some]
  · rfl

/-- A variable that has been set holds the value. -/
theorem value?_of_assign {v : Value} (h : r.assign x v = s.goOn) : s.store.value? x = some v := by
  obtain ⟨c, hc⟩ := Option.isSome_iff_exists.1 (assign_eq_goOn_iff.1 h).1
  rw [Store.value?, find?_of_assign (congrArg (Option.map Cell.ty) hc) h, if_pos rfl]
  rfl

/-- If the variable is there, and stays there, a loop goes some way. -/
theorem exists_counts (hbody : ∀ r, r.store.contains x → (body r).run.store.contains x)
    (ks : List Int) (hx : r.store.contains x) :
    ∃ starts result, Counts x body ks r starts result := by
  induction ks generalizing r with
  | nil => exact ⟨[], r.goOn, .done r⟩
  | cons k ks ih =>
    obtain ⟨s, hs, hxs⟩ := exists_assign_eq hx (.int k)
    have hxt := hbody s hxs
    rcases ht : body s with ⟨t, _ | halt⟩
    · rw [ht] at hxt
      obtain ⟨starts, result, h⟩ := ih hxt
      exact ⟨s :: starts, result, .turn hs ht h⟩
    · exact ⟨[s], t.stop halt, .stop hs ht⟩

namespace Counts

/-- A loop comes to the result of its straight line. -/
theorem result_eq (h : Counts x body ks r starts result) :
    result = inOrder (straightLine x body ks) r := by
  induction h with
  | done r => rfl
  | turn hs ht _ ih =>
    rw [inOrder_straightLine_cons, hs, goOn_andThen, ht, goOn_andThen, ih]
  | stop hs ht => rw [inOrder_straightLine_cons, hs, goOn_andThen, ht, stop_andThen]

/-- The variable holds the numbers, in order, when the block is started. -/
theorem map_value?_starts (h : Counts x body ks r starts result) :
    starts.map (·.store.value? x) <+: ks.map fun k => some (.int k) := by
  induction h with
  | done r => exact List.prefix_rfl
  | turn hs _ _ ih =>
    rw [List.map_cons, List.map_cons, value?_of_assign hs]
    exact (List.prefix_cons_inj _).2 ih
  | stop hs _ =>
    rw [List.map_cons, List.map_cons, value?_of_assign hs]
    exact (List.prefix_cons_inj _).2 List.nil_prefix

/-- A loop that is not stopped starts its block with every number. -/
theorem length_starts (h : Counts x body ks r starts result) (hresult : result.halt? = none) :
    starts.length = ks.length := by
  induction h with
  | done r => rfl
  | turn _ _ _ ih => rw [List.length_cons, List.length_cons, ih hresult]
  | stop => cases hresult

/-- A loop that is stopped is stopped by its block, which was started last. -/
theorem exists_getLast? (h : Counts x body ks r starts result) (hresult : result.halt? ≠ none) :
    ∃ s, starts.getLast? = some s ∧ body s = result := by
  induction h with
  | done r => exact absurd rfl hresult
  | turn _ _ _ ih =>
    obtain ⟨s, hs, hbody⟩ := ih hresult
    exact ⟨s, by rw [List.getLast?_cons, hs]; rfl, hbody⟩
  | stop _ ht => exact ⟨_, rfl, ht⟩

/-- If the block leaves the variable as it is, that holds the last number in the end. -/
theorem value?_eq (hbody : ∀ r v, r.store.value? x = some v →
    (body r).run.store.value? x = some v) (h : Counts x body ks r starts result)
    (hresult : result.halt? = none) : ∀ k ∈ ks.getLast?, result.run.store.value? x =
      some (.int k) := by
  induction h with
  | done r => exact nofun
  | @turn k ks r s t starts result hs ht hrest ih =>
    cases hrest with
    | done t =>
      rintro k ⟨⟩
      have hvalue := hbody s _ (value?_of_assign hs)
      rwa [ht] at hvalue
    | turn => exact ih hresult
    | stop => exact ih hresult
  | stop => cases hresult

end Counts

/-! ### The turns of a loop -/

theorem range_add_succ (k : Int) (turns : Nat) :
    Int.range k (k + (turns + 1 : Nat)) = k :: Int.range (k + 1) (k + 1 + turns) := by
  have hlength : (k + (turns + 1 : Nat) - k).toNat = turns + 1 := by omega
  have hlength' : (k + 1 + turns - (k + 1)).toNat = turns := by omega
  rw [Int.range, Int.range, hlength, hlength', List.range_succ_eq_map, List.map_cons, List.map_map]
  refine congrArg₂ List.cons (Int.add_zero k) (List.map_congr_left fun j _ => ?_)
  simp only [Function.comp_apply]
  omega

/-- The turns of a loop are its straight line. -/
theorem repeated_eq (x : String) (body : Run → Result) (turns : Nat) (k : Int) (r : Run) :
    repeated x body turns k r = inOrder (straightLine x body (Int.range k (k + turns))) r := by
  induction turns generalizing k r with
  | zero => simp [repeated, Int.range, straightLine, inOrder]
  | succ turns ih =>
    rw [repeated_succ, range_add_succ, inOrder_straightLine_cons]
    exact congrArg _ (funext fun s => congrArg _ (funext fun t => ih (k + 1) t))

end Run

namespace Machine

open Run

variable {x : String} {body : Block α} {rest : List (Task α)} {starts : List Run}
  {result : Result}

theorem step_loop_of_assign {turns : Nat} {k : Int} {r s : Run}
    (h : r.assign x (.int k) = s.goOn) :
    step ⟨.loop x body (turns + 1) k :: rest, r⟩ =
      .go ⟨body.map .stmt ++ .loop x body turns (k + 1) :: rest, s⟩ := by
  change proceed (r.assign x (.int k)) _ = _
  rw [h]
  rfl

/-- The machine comes to each run in which the block of a loop is started. What is left of the loop
    then are the turns after that, with the numbers from the next one on. -/
theorem reaches_starts (turns : Nat) {k : Int} {r : Run}
    (h : Counts x (Block.exec body) (Int.range k (k + turns)) r starts result) {j : Nat} {s : Run}
    (hs : starts[j]? = some s) :
    Reaches ⟨.loop x body turns k :: rest, r⟩
      ⟨body.map .stmt ++ .loop x body (turns - (j + 1)) (k + j + 1) :: rest, s⟩ := by
  induction turns generalizing k r starts j with
  | zero =>
    simp only [Int.range, Int.natCast_zero, Int.add_zero, Int.sub_self] at h
    cases h
    cases hs
  | succ turns ih =>
    rw [range_add_succ] at h
    cases j with
    | zero =>
      rw [Nat.add_sub_cancel, Int.natCast_zero, Int.add_zero]
      cases h <;> cases hs <;> exact .step .refl (step_loop_of_assign ‹_›)
    | succ j =>
      cases h with
      | stop => cases hs
      | @turn _ _ _ s₀ t _ _ hassign ht hrest =>
        -- The block goes on to the next turn, where the rest of the loop starts.
        have hbody := Block.does_exec (.loop x body turns (k + 1) :: rest) s₀ body
        rw [ht] at hbody
        have hnext := ih hrest hs
        rw [show k + 1 + (j : Int) + 1 = k + (j + 1 : Nat) + 1 by omega] at hnext
        rw [Nat.succ_sub_succ]
        exact (Reaches.refl.step (step_loop_of_assign hassign)).trans (Reaches.trans hbody hnext)

end Machine

/-! ## The loops of a program -/

mutual

/-- The loops in a statement, at any depth: their variables, and their blocks. -/
def Stmt.loops : Stmt α → List (String × Block α)
  | .declare .. => []
  | .assign .. => []
  | .forLoop _ x _ _ body => (x, body) :: Block.loops body
  | .ifThen _ _ body => Block.loops body
  | .ifElse _ _ body otherwise => Block.loops body ++ Block.loops otherwise
  | .print .. => []
  | .read .. => []
  | .assert .. => []

/-- The loops in a block, at any depth. -/
def Block.loops : Block α → List (String × Block α)
  | [] => []
  | s :: rest => s.loops ++ Block.loops rest

end

theorem Block.loops_subset {b : Block α} {s : Stmt α} (hs : s ∈ b) : s.loops ⊆ Block.loops b := by
  induction b with
  | nil => cases hs
  | cons t rest ih =>
    rcases List.mem_cons.1 hs with rfl | hs
    · exact List.subset_append_left _ _
    · exact List.subset_append_of_subset_right _ (ih hs)

/-- A loop whose variable is in a store, and is not declared in its block. -/
structure Store.Owns (σ : Store VarType) (loop : String × Block α) : Prop where
  mem_names : loop.1 ∈ σ.names
  not_declared : loop.1 ∉ (Block.declarations loop.2).map Prod.fst

theorem Block.names_isPrefix_extend (σ : Store VarType) (b : Block α) :
    σ.names <+: (Block.extend σ b).names := by
  have h := (Block.signature_isPrefix_extend σ b).map Prod.fst
  rwa [Store.signature, Store.signature, List.map_map, List.map_map] at h

theorem Store.Owns.extend {σ : Store VarType} {loop : String × Block α} (h : σ.Owns loop)
    (b : Block α) : (Block.extend σ b).Owns loop :=
  ⟨(Block.names_isPrefix_extend σ b).subset h.mem_names, h.not_declared⟩

/-- What is there before a block without faults is not declared in it. -/
theorem Block.not_mem_declarations {σ : Store VarType} {b : Block α}
    (h : Block.faults σ b = []) {x : String} (hx : x ∈ σ.names) :
    x ∉ (Block.declarations b).map Prod.fst := by
  have hnodup := (Block.extend σ b).nodup_names
  rw [Block.entries_extend h, List.map_append, Store.uninitialized, List.map_map] at hnodup
  exact fun hmem => (List.nodup_append.1 hnodup).2.2 x hx x hmem rfl

mutual

theorem Stmt.owned_loops {σ : Store VarType} {s : Stmt α} (h : s.faults σ = []) :
    ∀ loop ∈ s.loops, (s.extend σ).Owns loop := by
  cases s with
  | forLoop p x a b body =>
    simp only [Stmt.faults, List.append_eq_nil_iff, Store.require_eq_nil_iff] at h
    obtain ⟨⟨⟨⟨⟨⟨⟨ty, hx⟩, -⟩, -⟩, -⟩, -⟩, -⟩, hbody⟩ := h
    have hx : x ∈ σ.names := by
      rw [← Store.contains_iff, ← Bool.not_eq_false, Store.contains_eq_false_iff, hx]
      exact Option.some_ne_none ty
    rintro loop (_ | ⟨_, hloop⟩)
    · exact Store.Owns.extend ⟨hx, Block.not_mem_declarations hbody hx⟩ body
    · exact Block.owned_loops hbody loop hloop
  | ifThen p c body =>
    simp only [Stmt.faults, List.append_eq_nil_iff] at h
    exact Block.owned_loops h.2
  | ifElse p c body otherwise =>
    simp only [Stmt.faults, List.append_eq_nil_iff] at h
    intro loop hloop
    rcases List.mem_append.1 hloop with hloop | hloop
    · exact (Block.owned_loops h.1.2 loop hloop).extend otherwise
    · exact Block.owned_loops h.2 loop hloop
  | declare | assign | print | read | assert => exact nofun
termination_by structural s

/-- In a program without faults, the variable of a loop is there after the check, and its block
    does not declare it. -/
theorem Block.owned_loops {σ : Store VarType} {b : Block α} (h : Block.faults σ b = []) :
    ∀ loop ∈ Block.loops b, (Block.extend σ b).Owns loop := by
  cases b with
  | nil => exact nofun
  | cons s rest =>
    rw [Block.faults, List.append_eq_nil_iff] at h
    intro loop hloop
    rcases List.mem_append.1 hloop with hloop | hloop
    · exact (Stmt.owned_loops h.1 loop hloop).extend rest
    · exact Block.owned_loops h.2 loop hloop
termination_by structural b

end

/-! ## The states of a run -/

/-- The loops in what is still to be done. -/
def Task.loops : Task α → List (String × Block α)
  | .stmt s => s.loops
  | .loop x body _ _ => (x, body) :: Block.loops body

theorem Block.loops_map_stmt {b : Block α} : ∀ t ∈ b.map Task.stmt, t.loops ⊆ Block.loops b := by
  intro t ht
  obtain ⟨s, hs, rfl⟩ := List.mem_map.1 ht
  exact Block.loops_subset hs

/-- A run keeps all variables that are there. -/
theorem Store.stable_names (M : List Mention) (X : List String) :
    Store.Stable M (M.map Mention.name) fun σ => X ⊆ σ.names where
  declare _ h _ := by
    rw [Store.names_declare]
    split
    · exact h
    · exact List.subset_append_of_subset_left _ h
  set _ h _ := by rwa [Store.names_modify]
  get hx _ _ := List.mem_map_of_mem (f := Mention.name) hx

namespace Machine

/-- All variables of `X` are there, and what is still to be done has no loops but those of `L`. -/
structure Within (L : List (String × Block α)) (X : List String) (m : Machine α) : Prop where
  names : X ⊆ m.run.store.names
  loops : ∀ t ∈ m.tasks, t.loops ⊆ L

variable {L : List (String × Block α)} {X : List String} {m n : Machine α}

theorem within_of_proceed {result : Run.Result} {tasks : List (Task α)}
    (hX : X ⊆ result.run.store.names) (hL : ∀ t ∈ tasks, t.loops ⊆ L)
    (h : proceed result tasks = .go n) : n.Within L X := by
  obtain ⟨r, _ | halt⟩ := result
  · obtain rfl := Step.go.inj h
    exact ⟨hX, hL⟩
  · cases h

/-- A statement keeps the variables, and leaves no loops but its own. -/
theorem within_begin (s : Stmt α) {r : Run} (hX : X ⊆ r.store.names) :
    X ⊆ (s.begin r).1.run.store.names ∧ ∀ t ∈ (s.begin r).2, t.loops ⊆ s.loops := by
  have hexec : X ⊆ (s.exec r).run.store.names :=
    (Stmt.keeps_exec (Store.stable_names s.mentions X) s (List.Subset.refl _) hX).store
  have hnil : ∀ t ∈ ([] : List (Task α)), t.loops ⊆ s.loops :=
    fun t ht => absurd ht List.not_mem_nil
  cases s with
  | forLoop p x a b body =>
    rw [Stmt.begin]
    split
    · split
      · refine ⟨hX, fun t ht => ?_⟩
        obtain rfl := List.mem_singleton.1 ht
        exact List.Subset.refl _
      · exact ⟨hX, hnil⟩
    · exact ⟨hX, hnil⟩
    · exact ⟨hX, hnil⟩
  | ifThen p c body =>
    rw [Stmt.begin]
    split
    · refine ⟨hX, ?_⟩
      split
      · exact Block.loops_map_stmt
      · exact hnil
    · exact ⟨hX, hnil⟩
  | ifElse p c body otherwise =>
    rw [Stmt.begin]
    split
    · refine ⟨hX, fun t ht => ?_⟩
      split at ht
      · exact List.subset_append_of_subset_left _ (Block.loops_map_stmt t ht)
      · exact List.subset_append_of_subset_right _ (Block.loops_map_stmt t ht)
    · exact ⟨hX, hnil⟩
  | declare | assign | print | read | assert => exact ⟨hexec, hnil⟩

theorem Within.step (h : m.Within L X) (hn : m.step = .go n) : n.Within L X := by
  obtain ⟨tasks, r⟩ := m
  obtain ⟨hX, hL⟩ := h
  cases tasks with
  | nil => cases hn
  | cons t rest =>
    obtain ⟨ht, hrest⟩ := List.forall_mem_cons.1 hL
    cases t with
    | stmt s =>
      obtain ⟨hnames, hloops⟩ := within_begin s hX
      have hleft : ∀ t ∈ (s.begin r).2, t.loops ⊆ L := fun t hmem =>
        List.Subset.trans (hloops t hmem) ht
      exact within_of_proceed hnames (List.forall_mem_append.2 ⟨hleft, hrest⟩) hn
    | loop x body turns k =>
      cases turns with
      | zero =>
        obtain rfl := Step.go.inj hn
        exact ⟨hX, hrest⟩
      | succ turns =>
        have hkeeps := (Store.stable_names [.set x] X).assign (List.mem_singleton.2 rfl) hX (.int k)
        have hbody : ∀ t ∈ body.map Task.stmt, t.loops ⊆ L := fun t hmem =>
          List.Subset.trans (Block.loops_map_stmt t hmem) (List.cons_subset.1 ht).2
        have hturns : (Task.loop x body turns (k + 1)).loops ⊆ L := ht
        exact within_of_proceed hkeeps.store
          (List.forall_mem_append.2 ⟨hbody, List.forall_mem_cons.2 ⟨hturns, hrest⟩⟩) hn

theorem Within.reaches (h : m.Within L X) (hn : m.Reaches n) : n.Within L X := by
  induction hn with
  | refl => exact h
  | step _ hs ih => exact ih.step hs

theorem within_start (program : Block α) (r : Run) :
    (start program r).Within (Block.loops program) r.store.names where
  names := List.Subset.refl _
  loops := Block.loops_map_stmt

end Machine

/-- What is no target of a block keeps its value. -/
theorem Block.value?_exec {b : Block α} {x : String} (hx : x ∉ Block.targets b) {r : Run}
    {v : Value} (h : r.store.value? x = some v) :
    (Block.exec b r).run.store.value? x = some v := by
  obtain ⟨c, hc, hv⟩ := Option.bind_eq_some_iff.1 h
  obtain ⟨e, he, rfl⟩ := Option.map_eq_some_iff.1 hc
  obtain ⟨i, hi⟩ := List.mem_iff_getElem?.1 (List.mem_of_find?_eq_some he)
  obtain rfl : e.1 = x := by simpa using List.find?_some he
  have hretains := Block.retains_exec b (fun _ _ _ h _ => h) (r := r) hi hx
  rw [Store.value?, Store.find?_eq_of_mem (List.mem_of_getElem? hretains)]
  exact hv

/-- The targets of a block are the variables that it sets or declares. -/
theorem Block.not_mem_targets {b : Block α} {x : String} (hset : .set x ∉ Block.mentions b)
    (hdeclare : x ∉ (Block.declarations b).map Prod.fst) : x ∉ Block.targets b := by
  intro hx
  obtain ⟨m, hm, htarget⟩ := List.mem_filterMap.1 hx
  cases m with
  | declare y ty =>
    obtain rfl := Option.some.inj htarget
    rw [← Block.declarations_mentions] at hdeclare
    exact hdeclare (List.mem_map.2 ⟨_, List.mem_filterMap.2 ⟨_, hm, rfl⟩, rfl⟩)
  | set y =>
    obtain rfl := Option.some.inj htarget
    exact hset hm
  | get y => cases htarget

/-- In a program that passes its check, a loop whose bounds have the values `a` and `b` takes them
    first, in one step, and then has only its turns left. What it does then is to store `a`, …, `b`
    in its variable one after another, each with its block run after it, and it ends as that does;
    there is nothing to do if `b` is less than `a`. The runs in which the block is started come in
    the order of these numbers, and the variable holds the number in each of them. They are all
    there unless the block stops, and nothing else stops the loop. If the block does not set the
    variable, that holds `b` in the end. -/
theorem Block.counts_forLoop {σ : Store VarType} {program : Block α}
    (h : Block.faults σ program = []) (lines : List (Option String)) {m : Machine α}
    (hm : (Machine.start program (.start (Block.extend σ program) lines)).Reaches m) {p : Pos}
    {x : String} {first last : Expr α} {body : Block α} {rest : List (Task α)}
    (hnext : m.tasks = .stmt (.forLoop p x first last body) :: rest) {a b : Int}
    (ha : first.eval m.run.store = .ok (.int a)) (hb : last.eval m.run.store = .ok (.int b)) :
    let logged := m.run.log (.executing "For" p)
    let numbers := Int.range a (b + 1)
    let result := (Stmt.forLoop p x first last body).exec m.run
    let turns := (b - a + 1).toNat
    m.step = .go ⟨.loop x body turns a :: rest, logged⟩ ∧
    m.Does rest result ∧
    result = Run.inOrder (Run.straightLine x (Block.exec body) numbers) logged ∧
    (b < a → result = logged.goOn) ∧
    ∃ starts : List Run, Run.Counts x (Block.exec body) numbers logged starts result ∧
      (∀ j s, starts[j]? = some s →
        m.Reaches ⟨body.map .stmt ++ .loop x body (turns - (j + 1)) (a + j + 1) :: rest, s⟩) ∧
      starts.map (·.store.value? x) <+: numbers.map (fun k => some (.int k)) ∧
      (result.halt? = none → (starts.length : Int) = max 0 (b - a + 1)) ∧
      (result.halt? ≠ none → ∃ s, starts.getLast? = some s ∧ Block.exec body s = result) ∧
      (result.halt? = none → a ≤ b → .set x ∉ Block.mentions body →
        result.run.store.value? x = some (.int b)) := by
  obtain ⟨tasks, r⟩ := m
  obtain rfl : tasks = _ := hnext
  dsimp only at ha hb
  intro logged numbers result turns
  have hstep : Machine.step ⟨.stmt (.forLoop p x first last body) :: rest, r⟩ =
      .go ⟨.loop x body turns a :: rest, logged⟩ := by
    rw [Machine.step_stmt, Stmt.begin, ha, hb]
    rfl
  have hnumbers : numbers = Int.range a (a + turns) := by
    have hlength : (b + 1 - a).toNat = (a + turns - a).toNat := by omega
    rw [show numbers = Int.range a (b + 1) from rfl, Int.range, Int.range, hlength]
  have hresult : result = Run.repeated x (Block.exec body) turns a logged := by
    change Run.withValue _ (first.eval r.store) _ = _
    rw [ha]
    change Run.withValue _ (last.eval r.store) _ = _
    rw [hb]
    rfl
  -- The variable is there, here and after every turn, and the block does not declare it.
  have hwithin := (Machine.within_start program (.start (Block.extend σ program) lines)).reaches hm
  have howns : (Block.extend σ program).Owns (x, body) :=
    Block.owned_loops h _ (hwithin.loops _ List.mem_cons_self List.mem_cons_self)
  have hx : logged.store.contains x := Store.contains_iff.2 (hwithin.names howns.mem_names)
  have hkeeps : ∀ s : Run, s.store.contains x → (Block.exec body s).run.store.contains x := by
    intro s hs
    rw [Store.contains_iff] at hs ⊢
    have hnames := Store.stable_names (Block.mentions body) s.store.names
    exact (Block.keeps_exec hnames body (List.Subset.refl _) (List.Subset.refl _)).store hs
  obtain ⟨starts, result', hcounts⟩ := Run.exists_counts hkeeps numbers hx
  obtain rfl : result = result' := by
    rw [hcounts.result_eq, hresult, Run.repeated_eq, hnumbers]
  refine ⟨hstep, Stmt.does_exec rest r _, hcounts.result_eq, fun hlt => ?_, starts, hcounts,
    fun j s hs => ?_, hcounts.map_value?_starts, fun hend => ?_, hcounts.exists_getLast?,
    fun hend hle hset => ?_⟩
  · rw [hresult, show turns = 0 by omega]
    rfl
  · rw [hnumbers] at hcounts
    exact (Machine.Reaches.refl.step hstep).trans (Machine.reaches_starts turns hcounts hs)
  · rw [hcounts.length_starts hend, hnumbers, Int.range, List.length_map, List.length_range]
    omega
  · have hlast : b ∈ numbers.getLast? := by
      rw [show numbers = Int.range a (b + 1) from rfl, Int.range,
        show (b + 1 - a).toNat = (b - a).toNat + 1 by omega, List.range_succ, List.map_append,
        List.map_singleton, List.getLast?_concat]
      exact congrArg some (by omega)
    have hbody := Block.not_mem_targets hset howns.not_declared
    exact hcounts.value?_eq (fun _ _ => Block.value?_exec hbody) hend b hlast

/-- A block that sets the variable of the last bound, and has a loop over the same variable. -/
theorem Block.counts_forLoop_of_overwritten :
    let number (digits : String) : Expr Unit := .single () (.literal .start (.int digits))
    let body : Block Unit := [.assign .start "n" (number "0"),
      .forLoop .start "i" (number "7") (number "8") [],
      .print .start (.single () (.var .start "i"))]
    let loop : Stmt Unit :=
      .forLoop .start "i" (number "0") (.single () (.var .start "n")) body
    let program := [.declare .start "i" .int none, loop]
    let σ := Store.empty.declare "n" VarType.int (some (.int 2))
    let r := (Run.start (Block.extend σ program) []).log (.executing "Declare" .start)
    let m : Machine Unit := ⟨[.stmt loop], { r with store := r.store.declare "i" .int none }⟩
    Block.faults σ program = [] ∧
      (Machine.start program (.start (Block.extend σ program) [])).Reaches m ∧
      (loop.exec m.run).run.writes = ["8", "8", "8"] ∧
      ∃ starts, Run.Counts "i" (Block.exec body) (Int.range 0 3)
          (m.run.log (.executing "For" .start)) starts (loop.exec m.run) ∧
        starts.map (·.store.value? "i") = [some (.int 0), some (.int 1), some (.int 2)] := by
  intro number body loop program σ r m
  have hf : Block.faults σ program = [] := by decide +kernel
  have hm : (Machine.start program (.start (Block.extend σ program) [])).Reaches m :=
    .step .refl rfl
  have hend : (loop.exec m.run).halt? = none := by decide +kernel
  obtain ⟨-, -, -, -, starts, hcounts, -, hvalues, hlength, -⟩ :=
    Block.counts_forLoop hf [] hm rfl (a := 0) (b := 2) (by decide +kernel) (by decide +kernel)
  refine ⟨hf, hm, by decide +kernel, starts, hcounts, hvalues.eq_of_length ?_⟩
  rw [List.length_map]
  exact Int.natCast_inj.1 (hlength hend)

end MiniPL
