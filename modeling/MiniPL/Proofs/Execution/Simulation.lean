import MiniPL.Proofs.Execution.Machine
import MiniPL.Proofs.Syntax.Parts
import MiniPL.Proofs.Typing.Relocation

/-!
# Runs that go alike

Two runs of a program may differ in their states, and in the positions and labels in the
program. If a relation between their states is kept by everything that may be done with the
variables `X` (`Run.Simulation`), and the program names no others, then the states stay related,
and both runs end for the same reason (`Block.simulates`).

So labels do not matter for a run (`Block.exec_relocate_id`), positions are only seen in its events
and its end, and events before it stay what they are (`Run.Follows`); variables that it does not
name keep what they hold (`Run.Extends`); and the lines that are left to be read are those
after the ones that it has asked for (`Block.lines_exec`).
-/

namespace MiniPL

variable {α β : Type} {g : Pos → Pos} {X : List String}

/-! ## Evaluation -/

/-- The reason at another position. -/
def Halt.relocate (g : Pos → Pos) : Halt → Halt
  | fault f => fault (f.relocate g)
  | conversion c => conversion c
  | stuck => stuck

/-- If the reason is a variable that holds nothing, it is one of `X`. -/
def Halt.Within (X : List String) : Halt → Prop
  | fault ⟨.uninitialized x, _⟩ => x ∈ X
  | _ => True

/-- Both values are the same one, or there is none for the same reason, at another position. -/
inductive Halt.Alike (g : Pos → Pos) (X : List String) : Except Halt β → Except Halt β → Prop
  | ok (b : β) : Alike g X (.ok b) (.ok b)
  | error {h : Halt} (hx : h.Within X) : Alike g X (.error h) (.error (h.relocate g))

namespace Halt.Alike

variable {γ : Type}

/-- A reason other than a fault has no position. -/
theorem of_ne_fault {value : Except Halt β} (h : ∀ f, value ≠ .error (.fault f)) :
    Alike g X value value := by
  rcases value with (f | c | _) | b
  · exact absurd rfl (h f)
  · exact error (h := .conversion c) trivial
  · exact error (h := .stuck) trivial
  · exact ok b

theorem bind {x x' : Except Halt β} {k k' : β → Except Halt γ} (hx : Alike g X x x')
    (hk : ∀ b, Alike g X (k b) (k' b)) : Alike g X (x >>= k) (x' >>= k') := by
  cases hx with
  | ok b => exact hk b
  | error hx => exact error hx

end Halt.Alike

theorem orStuck_alike (o : Option β) : Halt.Alike g X (orStuck o) (orStuck o) :=
  .of_ne_fault fun f h => by cases o <;> cases h

theorem Value.joined_alike (a b : Value) : Halt.Alike g X (a.joined b) (a.joined b) :=
  .of_ne_fault fun f h => by
    unfold joined at h
    split at h <;> cases h

theorem Value.divided_alike (p : Pos) (a b : Value) :
    Halt.Alike g X (a.divided p b) (a.divided (g p) b) := by
  unfold divided
  split
  · exact .error (h := .fault ⟨.divisionByZero, p⟩) trivial
  · exact orStuck_alike _
  · exact .error (h := .stuck) trivial

theorem BinOp.apply_alike (op : BinOp) (ty? : Option VarType) (p : Pos) (a b : Value) :
    Halt.Alike g X (op.apply ty? p a b) (op.apply ty? (g p) a b) := by
  cases op with
  | add =>
    dsimp only [apply]
    split
    · exact a.joined_alike b
    · exact orStuck_alike _
  | div => exact a.divided_alike p b
  | sub | mul | lt | gt => exact orStuck_alike _
  | eq | and => exact .ok _

theorem Literal.eval_alike (l : Literal) : Halt.Alike g X l.eval l.eval :=
  .of_ne_fault fun f h => by
    cases l with
    | int digits =>
      unfold eval at h
      dsimp only at h
      split at h <;> cases h
    | text content => cases h

/-- The stores have the same variables of `X`. -/
def Store.Agree (X : List String) (σ σ' : Store VarType) : Prop :=
  ∀ x ∈ X, σ'.find? x = σ.find? x

section Agree

variable {σ σ' : Store VarType}

theorem Store.Agree.ty? (h : σ.Agree X σ') {x : String} (hx : x ∈ X) : σ'.ty? x = σ.ty? x := by
  rw [Store.ty?, h x hx, Store.ty?]

mutual

theorem Operand.ty?_of_agree (h : σ.Agree X σ') :
    (o : Operand α) → o.names ⊆ X → o.ty? σ' = o.ty? σ
  | .literal .., _ => rfl
  | .var .., hx => h.ty? (hx (List.mem_singleton.2 rfl))
  | .group _ e, hx => e.ty?_of_agree h hx

theorem Expr.ty?_of_agree (h : σ.Agree X σ') :
    (e : Expr α) → e.names ⊆ X → e.ty? σ' = e.ty? σ
  | .single _ o, hx => o.ty?_of_agree h hx
  | .negation .., _ => rfl
  | .binary _ l op _ r, hx => by
    obtain ⟨hl, hr⟩ := List.append_subset.1 hx
    rw [Expr.ty?, l.ty?_of_agree h hl, r.ty?_of_agree h hr, Expr.ty?]

end

mutual

theorem Operand.eval_alike (h : σ.Agree X σ') :
    (o : Operand α) → o.names ⊆ X → Halt.Alike g X (o.eval σ) ((o.relocate g).eval σ')
  | .literal _ l, _ => l.eval_alike
  | .var p x, hx => by
    have hmem : x ∈ X := hx (List.mem_singleton.2 rfl)
    rw [Operand.relocate, Operand.eval, Operand.eval, Store.value?, Store.value?, h x hmem]
    split
    · exact .ok _
    · exact .error (h := .fault ⟨.uninitialized x, p⟩) hmem
  | .group _ e, hx => e.eval_alike h hx

/-- An expression that only names variables of `X` comes to the same value. -/
theorem Expr.eval_alike (h : σ.Agree X σ') :
    (e : Expr α) → e.names ⊆ X → Halt.Alike g X (e.eval σ) ((e.relocate g).eval σ')
  | .single _ o, hx => o.eval_alike h hx
  | .negation _ _ o, hx => (o.eval_alike h hx).bind fun _ => .ok _
  | .binary _ l op p r, hx => by
    obtain ⟨hl, hr⟩ := List.append_subset.1 hx
    rw [Expr.relocate, Expr.eval, Expr.eval, l.ty?_relocate, r.ty?_relocate,
      l.ty?_of_agree h hl, r.ty?_of_agree h hr]
    exact (l.eval_alike h hl).bind fun a => (r.eval_alike h hr).bind fun b => op.apply_alike _ p a b

end

end Agree

/-! ## Runs -/

/-- The event at another position. -/
def RunEvent.relocate (g : Pos → Pos) : RunEvent → RunEvent
  | executing title p => executing title (g p)
  | wrote text => wrote text
  | read => read

/-- The relation is kept by everything that may be done with the variables `X`. -/
structure Run.Simulation (g : Pos → Pos) (X : List String) (R : Run → Run → Prop) : Prop where
  agree {r r' : Run} (h : R r r') : r.store.Agree X r'.store
  declare {r r' : Run} (h : R r r') {x : String} (hx : x ∈ X) (ty : VarType)
    (value : Option Value) :
    R { r with store := r.store.declare x ty value }
      { r' with store := r'.store.declare x ty value }
  modify {r r' : Run} (h : R r r') {x : String} (hx : x ∈ X) (f : Cell VarType → Cell VarType) :
    R { r with store := r.store.modify x f } { r' with store := r'.store.modify x f }
  log {r r' : Run} (h : R r r') {e : RunEvent} (he : e ≠ .read) :
    R (r.log e) (r'.log (e.relocate g))
  takeLine {r r' : Run} (h : R r r') :
    r'.takeLine.1 = r.takeLine.1 ∧ R r.takeLine.2 r'.takeLine.2

/-- The runs are related after both results, and end for the same reason, at another position, if
    they do. -/
inductive Run.Result.Alike (g : Pos → Pos) (X : List String) (R : Run → Run → Prop) :
    Run.Result → Run.Result → Prop
  | goOn {r r' : Run} (h : R r r') : Alike g X R r.goOn r'.goOn
  | stop {r r' : Run} {e : Halt} (h : R r r') (hx : e.Within X) :
    Alike g X R (r.stop e) (r'.stop (e.relocate g))

variable {R : Run → Run → Prop}

namespace Run.Result.Alike

variable {a a' : Run.Result} {k k' : Run → Run.Result}

theorem andThen (h : Alike g X R a a') (hk : ∀ r r', R r r' → Alike g X R (k r) (k' r')) :
    Alike g X R (a.andThen k) (a'.andThen k') := by
  cases h with
  | goOn h => exact hk _ _ h
  | stop h hx => exact stop h hx

theorem run (h : Alike g X R a a') : R a.run a'.run := by cases h <;> assumption

theorem halt? (h : Alike g X R a a') : a'.halt? = a.halt?.map (Halt.relocate g) := by
  cases h <;> rfl

theorem within (h : Alike g X R a a') {halt : Halt} (hhalt : a.halt? = some halt) :
    halt.Within X := by
  cases h with
  | goOn => cases hhalt
  | stop _ hx =>
    obtain rfl := Option.some.inj hhalt
    exact hx

end Run.Result.Alike

namespace Run.Simulation

variable {r r' : Run} {x : String} {p : Pos}

theorem withValue {value value' : Except Halt β} {k k' : β → Result} (h : R r r')
    (hv : Halt.Alike g X value value') (hk : ∀ b, Result.Alike g X R (k b) (k' b)) :
    Result.Alike g X R (r.withValue value k) (r'.withValue value' k') := by
  cases hv with
  | ok b => exact hk b
  | error hx => exact .stop h hx

theorem assign (hR : Simulation g X R) (h : R r r') (hx : x ∈ X) (v : Value) :
    Result.Alike g X R (r.assign x v) (r'.assign x v) := by
  rw [Run.assign, Run.assign, Store.assign?, Store.assign?, Store.contains, Store.contains,
    hR.agree h x hx]
  by_cases hc : (r.store.find? x).isSome
  · rw [if_pos hc, if_pos hc]
    exact .goOn (hR.modify h hx _)
  · rw [if_neg hc, if_neg hc]
    exact .stop (e := .stuck) h trivial

theorem write (hR : Simulation g X R) (h : R r r') (v : Value) :
    Result.Alike g X R (r.write v) (r'.write v) := by
  unfold Run.write
  split
  · exact .goOn (hR.log h (e := .wrote _) nofun)
  · exact .stop (e := .conversion _) h trivial

theorem integer_alike (line? : Option String) (p : Pos) :
    Halt.Alike g X (integer line? p) (integer line? (g p)) := by
  unfold integer
  split
  · exact .error (h := .fault ⟨.notAnInteger, p⟩) trivial
  · split
    · exact .error (h := .fault ⟨.notAnInteger, p⟩) trivial
    · split
      · exact .ok _
      · exact .error (h := .conversion _) trivial

theorem input (hR : Simulation g X R) (h : R r r') (hx : x ∈ X) :
    Result.Alike g X R (r.input x p) (r'.input x (g p)) := by
  obtain ⟨hline, hnext⟩ := hR.takeLine h
  rw [Run.input, Run.input, (hR.agree h).ty? hx]
  generalize r.takeLine = line, r'.takeLine = line' at hline hnext ⊢
  obtain ⟨line?, next⟩ := line
  obtain ⟨line?', next'⟩ := line'
  dsimp only at hline hnext ⊢
  subst hline
  split
  · exact withValue hnext (integer_alike _ p) fun v => hR.assign hnext hx v
  · exact hR.assign hnext hx _

theorem repeated (hR : Simulation g X R) {body body' : Run → Result}
    (hbody : ∀ r r', R r r' → Result.Alike g X R (body r) (body' r')) (hx : x ∈ X)
    (turns : Nat) : ∀ (k : Int) (r r' : Run), R r r' →
      Result.Alike g X R (Run.repeated x body turns k r) (Run.repeated x body' turns k r') := by
  induction turns with
  | zero => exact fun k r r' h => .goOn h
  | succ turns ih =>
    intro k r r' h
    rw [Run.repeated_succ, Run.repeated_succ]
    exact (hR.assign h hx (.int k)).andThen fun s s' hs =>
      (hbody s s' hs).andThen fun t t' ht => ih (k + 1) t t' ht

theorem counting (hR : Simulation g X R) {body body' : Run → Result}
    (hbody : ∀ r r', R r r' → Result.Alike g X R (body r) (body' r')) (hx : x ∈ X)
    (first last : Value) (h : R r r') :
    Result.Alike g X R (Run.counting x first last body r)
      (Run.counting x first last body' r') := by
  unfold Run.counting
  split
  · exact hR.repeated hbody hx _ _ r r' h
  · exact .stop (e := .stuck) h trivial

end Run.Simulation

mutual

theorem Stmt.simulates (hR : Run.Simulation g X R) (s : Stmt α) (hs : s.names ⊆ X) {r r' : Run}
    (h : R r r') : Run.Result.Alike g X R (s.exec r) ((s.relocate g).exec r') := by
  have hlog : R (r.log (.executing s.title s.pos))
      (r'.log (.executing (s.relocate g).title (s.relocate g).pos)) := by
    rw [s.title_relocate, s.pos_relocate]
    exact hR.log h (e := .executing s.title s.pos) nofun
  have hagree := hR.agree h
  cases s with
  | declare p x ty init =>
    cases init with
    | none => exact .goOn (hR.declare hlog (hs (List.mem_singleton.2 rfl)) _ none)
    | some e =>
      obtain ⟨hx, he⟩ := List.cons_subset.1 hs
      exact Run.Simulation.withValue hlog (e.eval_alike hagree he) fun v =>
        .goOn (hR.declare hlog hx _ (some v))
  | assign p x e =>
    obtain ⟨hx, he⟩ := List.cons_subset.1 hs
    exact Run.Simulation.withValue hlog (e.eval_alike hagree he) fun v => hR.assign hlog hx v
  | forLoop p x a b body =>
    obtain ⟨hx, hs⟩ := List.cons_subset.1 hs
    obtain ⟨hs, hbody⟩ := List.append_subset.1 hs
    obtain ⟨ha, hb⟩ := List.append_subset.1 hs
    exact Run.Simulation.withValue hlog (a.eval_alike hagree ha) fun first =>
      Run.Simulation.withValue hlog (b.eval_alike hagree hb) fun last =>
        hR.counting (fun _ _ ht => Block.simulates hR body hbody ht) hx first last hlog
  | ifThen p c body =>
    obtain ⟨hc, hbody⟩ := List.append_subset.1 hs
    refine Run.Simulation.withValue hlog (c.eval_alike hagree hc) fun v => ?_
    split
    · exact Block.simulates hR body hbody hlog
    · exact .goOn hlog
  | ifElse p c body otherwise =>
    obtain ⟨hs, hotherwise⟩ := List.append_subset.1 hs
    obtain ⟨hc, hbody⟩ := List.append_subset.1 hs
    refine Run.Simulation.withValue hlog (c.eval_alike hagree hc) fun v => ?_
    split
    · exact Block.simulates hR body hbody hlog
    · exact Block.simulates hR otherwise hotherwise hlog
  | print p e =>
    exact Run.Simulation.withValue hlog (e.eval_alike hagree hs) fun v => hR.write hlog v
  | read p x => exact hR.input hlog (hs (List.mem_singleton.2 rfl))
  | assert p c =>
    refine Run.Simulation.withValue hlog (c.eval_alike hagree hs) fun v => ?_
    split
    · exact .goOn hlog
    · rw [c.pos_relocate]
      exact .stop (e := .fault ⟨.assertionFailed, c.pos⟩) hlog trivial
termination_by structural s

/-- Blocks that only name variables of `X` go alike on related runs. -/
theorem Block.simulates (hR : Run.Simulation g X R) (b : Block α) (hb : Block.names b ⊆ X)
    {r r' : Run} (h : R r r') :
    Run.Result.Alike g X R (Block.exec b r) (Block.exec (Block.relocate g b) r') := by
  cases b with
  | nil => exact .goOn h
  | cons s rest =>
    obtain ⟨hs, hrest⟩ := List.append_subset.1 hb
    rw [Block.relocate, Block.exec_cons, Block.exec_cons]
    exact (Stmt.simulates hR s hs h).andThen fun _ _ ht => Block.simulates hR rest hrest ht
termination_by structural b

end

/-! ## Positions, labels, and events before -/

namespace Run

/-- The run `r'` has the same variables and lines as `r`, and after the events of `base` those of
    `r`, at other positions. -/
structure Follows (g : Pos → Pos) (base : List RunEvent) (r r' : Run) : Prop where
  store : r'.store = r.store
  lines : r'.lines = r.lines
  trace : r'.trace = r.trace.map (RunEvent.relocate g) ++ base

theorem simulation_follows (g : Pos → Pos) (X : List String) (base : List RunEvent) :
    Simulation g X (Follows g base) where
  agree h x _ := by rw [h.store]
  declare h _ _ ty value := ⟨by rw [h.store], h.lines, h.trace⟩
  modify h _ _ f := ⟨by rw [h.store], h.lines, h.trace⟩
  log h e _ := ⟨h.store, h.lines, by rw [Run.log, Run.log, h.trace]; rfl⟩
  takeLine {r r'} h := by
    have htrace : RunEvent.read :: r'.trace =
        (RunEvent.read :: r.trace).map (RunEvent.relocate g) ++ base := by
      rw [h.trace]
      rfl
    dsimp only [takeLine, log]
    rw [h.lines]
    split
    · exact ⟨rfl, h.store, rfl, htrace⟩
    · exact ⟨rfl, h.store, rfl, htrace⟩

end Run

/-- A program at other positions goes alike. -/
theorem Block.follows_exec (g : Pos → Pos) (b : Block α) {base : List RunEvent} {r r' : Run}
    (h : r.Follows g base r') :
    (Block.exec b r).run.Follows g base (Block.exec (Block.relocate g b) r').run ∧
      (Block.exec (Block.relocate g b) r').halt? =
        (Block.exec b r).halt?.map (Halt.relocate g) := by
  have := Block.simulates (Run.simulation_follows g (Block.names b) base) b (List.Subset.refl _) h
  exact ⟨this.run, this.halt?⟩

/-- If a program ends at a variable that holds nothing, it names it. -/
theorem Block.within_exec (b : Block α) {r : Run} {h : Halt}
    (hhalt : (Block.exec b r).halt? = some h) : h.Within (Block.names b) :=
  have hfollows : r.Follows id [] { r with trace := r.trace.map (RunEvent.relocate id) ++ [] } :=
    ⟨rfl, rfl, rfl⟩
  (Block.simulates (Run.simulation_follows id (Block.names b) []) b (List.Subset.refl _)
    hfollows).within hhalt

theorem RunEvent.relocate_id (e : RunEvent) : e.relocate id = e := by cases e <;> rfl

theorem Halt.relocate_id (h : Halt) : h.relocate id = h := by cases h <;> rfl

/-- Labels do not matter. -/
theorem Block.exec_relocate_id (b : Block α) (r : Run) :
    Block.exec (Block.relocate id b) r = Block.exec b r := by
  have htrace (trace : List RunEvent) : trace.map (RunEvent.relocate id) ++ [] = trace := by
    rw [List.append_nil, List.map_congr_left fun e _ => e.relocate_id, List.map_id']
  have hfollows : r.Follows id [] r := ⟨rfl, rfl, (htrace _).symm⟩
  obtain ⟨⟨hstore, hlines, hevents⟩, hhalt⟩ := Block.follows_exec id b hfollows
  rw [htrace] at hevents
  rw [funext Halt.relocate_id, Option.map_id'] at hhalt
  generalize Block.exec (Block.relocate id b) r = result, Block.exec b r = result' at *
  obtain ⟨⟨σ, lines, trace⟩, halt⟩ := result
  obtain ⟨⟨σ', lines', trace'⟩, halt'⟩ := result'
  dsimp only at hstore hlines hevents hhalt
  rw [hstore, hlines, hevents, hhalt]

/-- So neither do numbers. -/
theorem Block.exec_number (b : Block Unit) (r : Run) :
    Block.exec (Block.number b) r = Block.exec b r := by
  rw [← Block.exec_relocate_id, Block.number, Block.relocate_numberFrom, Block.relocate_id]

/-! ## Variables that are not named -/

namespace Run

/-- The run `r'` has `extra` variables after those of `r`. All of `X` are variables of `r`. -/
structure Extends (X : List String) (extra : List (String × Cell VarType)) (r r' : Run) : Prop where
  known : X ⊆ r.store.names
  entries : r'.store.entries = r.store.entries ++ extra
  lines : r'.lines = r.lines
  trace : r'.trace = r.trace

variable {r r' : Run} {extra : List (String × Cell VarType)}

theorem Extends.find? (h : Extends X extra r r') : r.store.Agree X r'.store := by
  intro x hx
  have hc : r.store.contains x := Store.contains_iff.2 (h.known hx)
  rw [Store.contains, Store.find?, Option.isSome_map] at hc
  obtain ⟨c, hc⟩ := Option.isSome_iff_exists.1 hc
  rw [Store.find?, h.entries, List.find?_append, Store.find?, hc, Option.some_or]

/-- A change of a variable of `X` leaves the others. -/
theorem Extends.modify (h : Extends X extra r r') {x : String} (hx : x ∈ X)
    (f : Cell VarType → Cell VarType) :
    Extends X extra { r with store := r.store.modify x f }
      { r' with store := r'.store.modify x f } where
  known := by simpa using h.known
  entries := by
    -- Names are distinct, so none of the variables after those of `r` is `x`.
    have hne : ∀ e ∈ extra, e.1 ≠ x := by
      rintro e he rfl
      have hnodup := r'.store.nodup_names
      rw [h.entries, List.map_append, List.nodup_append] at hnodup
      exact hnodup.2.2 _ (h.known hx) _ (List.mem_map_of_mem he) rfl
    dsimp only [Store.modify]
    rw [h.entries, List.map_append, List.append_cancel_left_eq]
    exact (List.map_congr_left fun e he => if_neg (hne e he)).trans (List.map_id' extra)
  lines := h.lines
  trace := h.trace

theorem simulation_extends (X : List String) (extra : List (String × Cell VarType)) :
    Simulation id X (Extends X extra) where
  agree h := h.find?
  declare {r r'} h {x} hx ty value := by
    have hx' : x ∈ r'.store.names := by
      rw [Store.names, h.entries, List.map_append]
      exact List.mem_append_left _ (h.known hx)
    rw [Store.declare, Store.declare, dif_pos (h.known hx), dif_pos hx']
    exact h.modify hx _
  modify h _ hx f := h.modify hx f
  log h e _ :=
    ⟨h.known, h.entries, h.lines, by rw [Run.log, Run.log, h.trace, RunEvent.relocate_id]⟩
  takeLine {r r'} h := by
    dsimp only [takeLine, log]
    rw [h.lines, h.trace]
    split
    · exact ⟨rfl, h.known, h.entries, rfl, rfl⟩
    · exact ⟨rfl, h.known, h.entries, rfl, rfl⟩

end Run

/-- With more variables, which the program does not name, it goes the same way, and leaves them as
    they are. -/
theorem Block.extends_exec (b : Block α) {extra : List (String × Cell VarType)} {r r' : Run}
    (h : r.Extends (Block.names b) extra r') :
    (Block.exec b r).run.Extends (Block.names b) extra (Block.exec b r').run ∧
      (Block.exec b r').halt? = (Block.exec b r).halt? := by
  have := Block.simulates (Run.simulation_extends (Block.names b) extra) b (List.Subset.refl _) h
  rw [Block.exec_relocate_id] at this
  have hhalt := this.halt?
  rw [funext Halt.relocate_id, Option.map_id'] at hhalt
  exact ⟨this.run, hhalt⟩

/-! ## Lines -/

theorem Run.simulation_reading (X : List String) (lines : List (Option String)) :
    Simulation id X fun r r' => r' = r ∧ r.lines = lines.drop r.reads where
  agree h _ _ := by rw [h.1]
  declare h _ _ _ _ := ⟨by rw [h.1], h.2⟩
  modify h _ _ _ := ⟨by rw [h.1], h.2⟩
  log {r r'} h e he := by
    refine ⟨by rw [h.1, RunEvent.relocate_id], ?_⟩
    change r.lines = lines.drop ((e :: r.trace).count .read)
    rw [List.count_cons_of_ne he]
    exact h.2
  takeLine {r r'} h := by
    obtain ⟨rfl, hl⟩ := h
    refine ⟨rfl, rfl, ?_⟩
    have hcount : (RunEvent.read :: r'.trace).count .read = r'.reads + 1 := List.count_cons_self
    have htail : r'.lines.tail = lines.drop (r'.reads + 1) := by rw [hl, List.tail_drop]
    dsimp only [takeLine, log]
    split <;> next hr => rw [Run.reads, hcount, ← htail, hr]; rfl

/-- The lines that are left are those after the lines that have been asked for. -/
theorem Block.lines_exec (b : Block α) {lines : List (Option String)} {r : Run}
    (h : r.lines = lines.drop r.reads) :
    (Block.exec b r).run.lines = lines.drop (Block.exec b r).run.reads :=
  (Block.simulates (Run.simulation_reading (Block.names b) lines) b (List.Subset.refl _)
    ⟨rfl, h⟩).run.2

end MiniPL
