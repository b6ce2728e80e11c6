import MiniPL.Proofs.Grammar.Faults

/-!
# Where faults are found

All faults that are found while some tokens are parsed stand at an item of the stream
(`ParseState.exists_item_of_mem_faults`): at the item where a statement cannot go on, at the
token after which a semicolon is missing, or at the end of the program.
-/

namespace MiniPL

/-- All tokens, and then the end of the program. -/
theorem Stream.items_eof (ts : List Token) (p : Pos) :
    items ⟨ts, .eof p⟩ = ts.map .token ++ [.eof p] := rfl

theorem Stream.items_append (w rest : List Token) (p : Pos) :
    items ⟨w ++ rest, .eof p⟩ = w.map .token ++ items ⟨rest, .eof p⟩ := by
  rw [items_eof, items_eof, List.map_append, List.append_assoc]

theorem Stream.first_mem_items (ts : List Token) (p : Pos) :
    Item.first ts (.eof p) ∈ items ⟨ts, .eof p⟩ := by
  cases ts <;> exact List.mem_cons_self

theorem Stream.eof_mem_items (ts : List Token) (p : Pos) : .eof p ∈ items ⟨ts, .eof p⟩ :=
  List.mem_append_right _ List.mem_cons_self

theorem Stream.mem_items_of_suffix {rest ts : List Token} (h : rest <:+ ts) {p : Pos} {i : Item}
    (hi : i ∈ items ⟨rest, .eof p⟩) : i ∈ items ⟨ts, .eof p⟩ := by
  obtain ⟨w, rfl⟩ := h
  rw [items_append]
  exact List.mem_append_right _ hi

namespace ParseState

/-- Faults that stand at items of the rest stand at items of all tokens. -/
theorem exists_item_of_suffix {rest ts : List Token} (h : rest <:+ ts) {p : Pos}
    {fs : List (Located SyntaxFault)}
    (hfs : ∀ g ∈ fs, ∃ i ∈ Stream.items ⟨rest, .eof p⟩, g.pos = i.pos) :
    ∀ g ∈ fs, ∃ i ∈ Stream.items ⟨ts, .eof p⟩, g.pos = i.pos := by
  intro g hg
  obtain ⟨i, hi, hgi⟩ := hfs g hg
  exact ⟨i, Stream.mem_items_of_suffix h hi, hgi⟩

/-- Every fault stands where an unread item stands. -/
theorem exists_item_of_mem_faults (l : Pos) (ts : List Token) (outer : List OpenBlock)
    (done : List (Stmt Unit)) (p : Pos) :
    ∀ g ∈ (⟨⟨l, ts, .eof p⟩, outer, done⟩ : ParseState).faults,
      ∃ i ∈ Stream.items ⟨ts, .eof p⟩, g.pos = i.pos := by
  induction l, ts, outer, done using step_induction p with
  | nil l outer done =>
    intro g hg
    rcases outer with _ | ⟨o, outer⟩
    · rw [faults_of_eof] at hg
      cases hg
    · rw [faults_of_unclosed] at hg
      obtain rfl := List.mem_singleton.1 hg
      exact ⟨.eof p, Stream.eof_mem_items _ p, rfl⟩
  | semicolon hm ih =>
    rw [hm.leads_semicolon.faults]
    exact exists_item_of_suffix ((List.suffix_cons ..).trans (List.suffix_append ..)) ih
  | @missing l w rest _ _ _ _ _ hw hs hm ih =>
    rw [(hm.leads_missing hs).faults, List.singleton_append, List.forall_mem_cons]
    refine ⟨?_, exists_item_of_suffix (List.suffix_append ..) ih⟩
    -- The missing semicolon is told of at the last token that was read, which is here.
    obtain ⟨u, t, rfl, hl⟩ := Token.exists_concat hw
    refine ⟨.token t, ?_, hl l⟩
    rw [Stream.items_append]
    exact List.mem_append_left _ (List.mem_map_of_mem (List.mem_concat_self ..))
  | enter hw hm ih =>
    rw [hm.leads_enter.faults]
    exact exists_item_of_suffix (List.suffix_append ..) ih
  | @resumed _ w rest t rest' _ _ _ _ _ hr hf hm ih =>
    rw [(hm.leads_fault hr).faults, List.singleton_append, List.forall_mem_cons]
    refine ⟨⟨_, Stream.mem_items_of_suffix (List.suffix_append ..) (Stream.first_mem_items rest p),
      hf⟩, ?_⟩
    exact exists_item_of_suffix ((suffix_of_resumed hr).trans (List.suffix_append ..)) ih
  | @ended _ w rest _ _ _ _ _ hr hf hm =>
    -- Two faults: where the statement cannot go on, and at the end of the program.
    rw [(hm.faults_of_fault hr).1, List.forall_mem_cons, List.forall_mem_singleton]
    exact ⟨⟨_, Stream.mem_items_of_suffix (List.suffix_append ..) (Stream.first_mem_items rest p),
      hf⟩, .eof p, Stream.eof_mem_items _ p, rfl⟩

end ParseState

end MiniPL
