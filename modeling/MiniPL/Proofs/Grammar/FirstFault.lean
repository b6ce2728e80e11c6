import MiniPL.Proofs.Grammar.Positions

/-!
# The first fault

From a place between two statements of a program, parsing ends with the program or comes to a
first fault (`ParseState.outcome_of_opens`). What is read before that is viable, and the fault is
either found at the next item, which no program has there, or else it is that of a missing
semicolon after a whole statement. It is found whatever comes after that item: this is why no
program has that item there (`MiniPL.Proofs.Grammar.Earliest`).
-/

namespace MiniPL

namespace ParseState

open MiniPL.Derivation (Opens Viable EndsStatement)

/-- From the place with the given open blocks, after the tokens `v`, the first fault `f` is
    found when the tokens `w` are read and the tokens `rest` are left. -/
structure FirstFault (v : List Token) (outer : List OpenBlock) (done : List (Stmt Unit)) (l : Pos)
    (w rest : List Token) (p : Pos) (f : Located SyntaxFault) : Prop where
  viable : Viable ((v ++ w).map .token)
  found_or_missing :
    (f.thing.found? = some (Item.first rest (.eof p)).kind ∧
      f.pos = (Item.first rest (.eof p)).pos) ∨
    (f.thing = .missingSemicolon ∧ w ≠ [] ∧ f.pos = Token.lastPos l w ∧ EndsStatement (v ++ w))
  head? : ∀ l' rest' p', Item.first rest' (.eof p') = Item.first rest (.eof p) →
    (⟨⟨l', w ++ rest', .eof p'⟩, outer, done⟩ : ParseState).faults.head? = some f
  pos_mem : ∀ g ∈ (⟨⟨l, w ++ rest, .eof p⟩, outer, done⟩ : ParseState).faults,
    (w ≠ [] ∧ g.pos = Token.lastPos l w) ∨ ∃ i ∈ Stream.items ⟨rest, .eof p⟩, g.pos = i.pos

variable {v w rest : List Token} {outer outer' : List OpenBlock} {done done' : List (Stmt Unit)}
  {l p : Pos} {f : Located SyntaxFault}

/-- The first fault is found whatever comes after the item at which it is found. -/
theorem FirstFault.exists_faults (h : FirstFault v outer done l w rest p f) (l' : Pos)
    {rest' : List Token} {p' : Pos}
    (hfirst : Item.first rest' (.eof p') = Item.first rest (.eof p)) :
    ∃ fs, (⟨⟨l', w ++ rest', .eof p'⟩, outer, done⟩ : ParseState).faults = f :: fs :=
  List.head?_eq_some_iff.1 (h.head? l' rest' p' hfirst)

/-- The nesting of parentheses is none of these faults. -/
theorem FirstFault.ne_nestedTooDeeply (h : FirstFault v outer done l w rest p f) :
    f.thing ≠ .nestedTooDeeply := by
  intro hf
  rcases h.found_or_missing with ⟨h, -⟩ | ⟨h, -⟩ <;> rw [hf] at h <;> cases h

/-- The first fault is the same from an earlier place from which parsing leads there. -/
theorem FirstFault.of_leads {u : List Token}
    (h : FirstFault (v ++ u) outer' done' (Token.lastPos l u) w rest p f)
    (hu : ∀ l ts p', Item.first ts (.eof p') = Item.first (w ++ rest) (.eof p) →
      Leads [] ⟨⟨l, u ++ ts, .eof p'⟩, outer, done⟩
        ⟨⟨Token.lastPos l u, ts, .eof p'⟩, outer', done'⟩) :
    FirstFault v outer done l (u ++ w) rest p f where
  viable := by
    rw [← List.append_assoc]
    exact h.viable
  found_or_missing := by
    rcases h.found_or_missing with hf | ⟨hf, hw, hpos, he⟩
    · exact Or.inl hf
    · refine Or.inr ⟨hf, by simp [hw], ?_, ?_⟩
      · rw [hpos, Token.lastPos_append]
      · rwa [← List.append_assoc]
  head? l' rest' p' hfirst := by
    rw [List.append_assoc, (hu l' (w ++ rest') p' _).faults]
    · exact h.head? _ rest' p' hfirst
    · rw [Item.first_append, Item.first_append, hfirst]
  pos_mem := by
    intro g hg
    rw [List.append_assoc, (hu l (w ++ rest) p rfl).faults] at hg
    rcases h.pos_mem g hg with ⟨hw, hpos⟩ | hi
    · exact Or.inl ⟨by simp [hw], by rw [hpos, Token.lastPos_append]⟩
    · exact Or.inr hi

/-- The end of the program inside a block. -/
theorem firstFault_of_unclosed {o : OpenBlock} (h : Opens v (o :: outer) done) :
    FirstFault v (o :: outer) done l [] [] p ⟨.unclosedBlock, p⟩ where
  viable := by
    rw [List.append_nil]
    exact h.viable
  found_or_missing := Or.inl ⟨rfl, rfl⟩
  head? l' rest' p' hfirst := by
    cases rest' with
    | nil =>
      obtain rfl := Item.eof.inj hfirst
      rw [List.nil_append, faults_of_unclosed, List.head?_cons]
    | cons t rest' => cases hfirst
  pos_mem g hg := Or.inr (exists_item_of_mem_faults _ _ _ _ _ g hg)

/-- A fault that is found is followed by faults at items that come after it. -/
theorem Moves.exists_faults
    (hm : Moves outer done w (Item.first rest (.eof p)) (.fault f outer' done')) :
    ∃ gs, (⟨⟨l, w ++ rest, .eof p⟩, outer, done⟩ : ParseState).faults = f :: gs ∧
      ∀ g ∈ gs, ∃ i ∈ Stream.items ⟨rest, .eof p⟩, g.pos = i.pos := by
  cases hr : rest.dropWhile (·.lexeme != .symbol .semicolon) with
  | nil =>
    refine ⟨[⟨.missingSemicolon, p⟩], (hm.faults_of_fault hr).1, fun g hg => ?_⟩
    obtain rfl := List.mem_singleton.1 hg
    exact ⟨.eof p, Stream.eof_mem_items rest p, rfl⟩
  | cons t rest' =>
    refine ⟨_, (hm.leads_fault hr).faults, fun g hg => ?_⟩
    obtain ⟨i, hi, hgi⟩ := exists_item_of_mem_faults _ _ _ _ _ g hg
    exact ⟨i, Stream.mem_items_of_suffix (suffix_of_resumed hr) hi, hgi⟩

/-- A fault that is found by the next step. -/
theorem Moves.firstFault {f : SyntaxFault}
    (hm : Moves outer done w (Item.first rest (.eof p))
      (.fault ⟨f, (Item.first rest (.eof p)).pos⟩ outer' done'))
    (hf : f.found? = some (Item.first rest (.eof p)).kind) (hv : Viable ((v ++ w).map .token)) :
    FirstFault v outer done l w rest p ⟨f, (Item.first rest (.eof p)).pos⟩ where
  viable := hv
  found_or_missing := Or.inl ⟨hf, rfl⟩
  head? l' rest' p' hfirst := by
    rw [← hfirst] at hm
    obtain ⟨gs, hgs, -⟩ := hm.exists_faults (l := l')
    rw [hgs, List.head?_cons, hfirst]
  pos_mem g hg := by
    obtain ⟨gs, hgs, hpos⟩ := hm.exists_faults (l := l)
    rw [hgs] at hg
    rcases List.mem_cons.1 hg with rfl | hg
    · exact Or.inr ⟨_, Stream.first_mem_items rest p, rfl⟩
    · exact Or.inr (hpos g hg)

/-- A semicolon that is missing after the next statement. -/
theorem Moves.firstFault_missing {s : Stmt Unit} (hw : w ≠ [])
    (hm : Moves outer done w (Item.first rest (.eof p)) (.finish s outer' done'))
    (hs : (Item.first rest (.eof p)).kind ≠ .symbol .semicolon)
    (hv : Viable ((v ++ w).map .token)) (he : EndsStatement (v ++ w)) :
    FirstFault v outer done l w rest p ⟨.missingSemicolon, Token.lastPos l w⟩ where
  viable := hv
  found_or_missing := Or.inr ⟨rfl, hw, rfl, he⟩
  head? l' rest' p' hfirst := by
    -- The fault stands at the last token, which is one of `w`, wherever `w` comes after.
    rw [← hfirst] at hm hs
    rw [(hm.leads_missing hs).faults, List.singleton_append, List.head?_cons,
      Token.lastPos_eq hw l' l]
  pos_mem g hg := by
    rw [(hm.leads_missing hs).faults] at hg
    rcases List.mem_cons.1 hg with rfl | hg
    · exact Or.inl ⟨hw, rfl⟩
    · exact Or.inr (exists_item_of_mem_faults _ _ _ _ _ g hg)

theorem lt_nestingFrom (h : ∀ n, n + (Reading.nestingLimit + 1) ≤ w.foldl Token.parens n)
    (n : Nat) : Reading.nestingLimit < Token.nestingFrom n (w ++ rest) := by
  refine Nat.lt_of_lt_of_le ?_ (Token.foldl_parens_le_nestingFrom n w rest)
  exact Nat.lt_of_lt_of_le (Nat.lt_succ_self _) (Nat.le_trans (Nat.le_add_left ..) (h n))

/-- How parsing the tokens `ts` comes out, from the place with the given open blocks after the
    tokens `v`: with a program, with a first fault, or with too many parentheses. -/
inductive Outcome (v : List Token) (outer : List OpenBlock) (done : List (Stmt Unit)) (l : Pos)
    (ts : List Token) (p : Pos) : Prop
  | program (b : Derivation.Block) (hb : b.tokens = v ++ ts)
    (hf : (⟨⟨l, ts, .eof p⟩, outer, done⟩ : ParseState).faults = [])
    (he : (⟨⟨l, ts, .eof p⟩, outer, done⟩ : ParseState).run.2 = .complete b.tree)
  | fault {w rest : List Token} {f : Located SyntaxFault} (hts : ts = w ++ rest)
    (h : FirstFault v outer done l w rest p f)
  | deep (h : ∀ n, Reading.nestingLimit < Token.nestingFrom n ts)

/-- Parsing comes out as it does from a later place to which it leads. -/
theorem Outcome.of_leads {u ts : List Token}
    (h : Outcome (v ++ u) outer' done' (Token.lastPos l u) ts p)
    (hu : ∀ l ts' p', Item.first ts' (.eof p') = Item.first ts (.eof p) →
      Leads [] ⟨⟨l, u ++ ts', .eof p'⟩, outer, done⟩
        ⟨⟨Token.lastPos l u, ts', .eof p'⟩, outer', done'⟩) :
    Outcome v outer done l (u ++ ts) p := by
  cases h with
  | program b hb hf he =>
    have hl := hu l ts p rfl
    exact .program b (by rw [hb, List.append_assoc]) (hl.faults.trans hf) (hl.ending.trans he)
  | fault hts h =>
    subst hts
    exact .fault (List.append_assoc ..).symm (h.of_leads hu)
  | deep h =>
    exact .deep fun n => Nat.lt_of_lt_of_le (h _) (Token.nestingFrom_foldl_le n u ts)

/-- From between two statements of a program, parsing comes out. -/
theorem outcome_of_opens (ts : List Token) (h : Opens v outer done) (l p : Pos) :
    Outcome v outer done l ts p := by
  induction l, ts, outer, done using step_induction p generalizing v with
  | nil l outer done =>
    rcases outer with _ | ⟨o, outer⟩
    · obtain ⟨b, hb, ht⟩ := h.exists_block
      refine .program b (by rw [hb, List.append_nil]) faults_of_eof ?_
      rw [run_of_eof, ht]
    · exact .fault rfl (firstFault_of_unclosed h)
  | @semicolon l q w rest s outer done outer' done' hm ih =>
    cases hm.sound v h with
    | finish ho d hw =>
      -- With its semicolon, the statement is part of what comes before the next place.
      have ho := ho.snoc d q
      rw [hw, List.append_assoc] at ho
      have hout : Outcome (v ++ (w ++ [Symbol.token .semicolon q])) outer' (d.tree :: done')
          (Token.lastPos l (w ++ [Symbol.token .semicolon q])) rest p := by
        rw [Token.lastPos_append]
        exact ih ho
      rw [List.append_cons]
      refine hout.of_leads fun l ts p' _ => ?_
      rw [← List.append_cons, Token.lastPos_append]
      exact hm.leads_semicolon
  | missing hw hs hm ih =>
    -- Parsing goes on, but the first fault is known.
    cases hm.sound v h with
    | finish ho d hv =>
      exact .fault rfl (hm.firstFault_missing hw hs (viable_of_finish ho d hv)
        (hv ▸ ho.endsStatement d))
  | enter hw hm ih =>
    cases hm.sound v h with
    | enter ho => exact (ih ho).of_leads fun l ts p' hts => (hts ▸ hm).leads_enter
  | resumed hr hf hm ih =>
    -- A fault is found whether there is a semicolon after it or not.
    cases hm.sound v h with
    | fault hk hv => exact .fault rfl (hm.firstFault hk hv)
    | deep hd => exact .deep (lt_nestingFrom hd)
  | ended hr hf hm =>
    cases hm.sound v h with
    | fault hk hv => exact .fault rfl (hm.firstFault hk hv)
    | deep hd => exact .deep (lt_nestingFrom hd)

end ParseState

end MiniPL
