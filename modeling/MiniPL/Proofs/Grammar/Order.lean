import MiniPL.Proofs.Grammar.Breaks
import MiniPL.Proofs.Grammar.Positions
import MiniPL.Proofs.Grammar.Recovery

/-!
# The order of faults

Faults come in the order of the text: those of a program stand at items of its stream that are
met one after the other, and only the end of the program may be met twice, by the last two
(`Stream.inOrder_of_parse_eq_error`). So there are no more faults than items.

The invariant is that the faults found from a place on are spaced like this over the unread
tokens (`ParseState.spaced_faults`): every step takes the token at which it finds a fault. The
one place for two faults is the end, if a statement stops there and there is no semicolon; but
then a token of the statement was taken before, at which no fault is found.
-/

namespace MiniPL

/-- The items `is` are met in the stream one after the other; but the end may be met twice, by
    the last two of them. -/
def Stream.InOrder (s : Stream) (is : List Item) : Prop :=
  is.Sublist s.items ∨
    ∃ js p, is = js ++ [.eof p, .eof p] ∧ (js ++ [.eof p]).Sublist s.items

/-- The faults stand at items of the stream that are in order, and are not more than these. -/
structure Stream.Spaced (s : Stream) (fs : List (Located SyntaxFault)) : Prop where
  inOrder : ∃ is, s.InOrder is ∧ fs.map (·.pos) = is.map Item.pos
  length_le : fs.length ≤ s.items.length

namespace Stream

variable {p : Pos} {t : Token} {ts : List Token} {f g : Located SyntaxFault}
  {fs : List (Located SyntaxFault)}

theorem InOrder.skip {is : List Item} (h : InOrder ⟨ts, .eof p⟩ is) (w : List Token) :
    InOrder ⟨w ++ ts, .eof p⟩ is := by
  have hw : (items ⟨ts, .eof p⟩).Sublist (items ⟨w ++ ts, .eof p⟩) := by
    rw [items_append]
    exact List.sublist_append_right _ _
  rcases h with h | ⟨js, q, his, h⟩
  · exact .inl (h.trans hw)
  · exact .inr ⟨js, q, his, h.trans hw⟩

theorem InOrder.cons {is : List Item} (h : InOrder ⟨ts, .eof p⟩ is) (t : Token) :
    InOrder ⟨t :: ts, .eof p⟩ (.token t :: is) := by
  rcases h with h | ⟨js, q, rfl, h⟩
  · exact .inl (h.cons_cons _)
  · exact .inr ⟨.token t :: js, q, rfl, h.cons_cons _⟩

theorem Spaced.skip (h : Spaced ⟨ts, .eof p⟩ fs) (w : List Token) :
    Spaced ⟨w ++ ts, .eof p⟩ fs where
  inOrder :=
    let ⟨is, his, hpos⟩ := h.inOrder
    ⟨is, his.skip w, hpos⟩
  length_le := by
    rw [items_append, List.length_append]
    exact Nat.le_add_left_of_le h.length_le

/-- A fault at a token comes before those that stand after it. -/
theorem Spaced.cons (h : Spaced ⟨ts, .eof p⟩ fs) (hf : f.pos = t.pos) :
    Spaced ⟨t :: ts, .eof p⟩ (f :: fs) where
  inOrder :=
    let ⟨is, his, hpos⟩ := h.inOrder
    ⟨.token t :: is, his.cons t, by rw [List.map_cons, List.map_cons, hf, hpos]; rfl⟩
  length_le := Nat.succ_le_succ h.length_le

theorem spaced_nil : Spaced ⟨[], .eof p⟩ [] :=
  ⟨⟨[], .inl (List.nil_sublist _), rfl⟩, Nat.zero_le _⟩

/-- One fault may stand at the end. -/
theorem spaced_end (hf : f.pos = p) : Spaced ⟨[], .eof p⟩ [f] :=
  ⟨⟨[.eof p], .inl (List.Sublist.refl _), congrArg (· :: []) hf⟩, Nat.le_refl _⟩

/-- Two faults may stand at the end, if there is a token before it. -/
theorem spaced_end_twice (hts : ts ≠ []) (hf : f.pos = p) (hg : g.pos = p) :
    Spaced ⟨ts, .eof p⟩ [f, g] where
  inOrder := by
    refine ⟨[.eof p, .eof p], .inr ⟨[], p, rfl, List.sublist_append_right _ _⟩, ?_⟩
    rw [List.map_cons, List.map_singleton, hf, hg]
    rfl
  length_le := by
    have := List.length_pos_iff.2 hts
    rw [items_eof, List.length_append, List.length_map]
    exact Nat.succ_le_succ this

end Stream

namespace ParseState

/-- If there is a semicolon to go on after, then after the first token there is one, or it is
    that token. -/
theorem exists_cons_of_resumed {t : Token} {rest rest' : List Token}
    (h : rest.dropWhile (·.lexeme != .symbol .semicolon) = t :: rest') :
    ∃ t₀ u, rest = t₀ :: (u ++ rest') := by
  obtain ⟨_ | ⟨t₀, u⟩, rfl⟩ := suffix_of_skipped h
  · exact ⟨t, [], rfl⟩
  · exact ⟨t₀, u ++ [t], by simp⟩

/-- Without a token there is no statement that could stop at a fault. -/
theorem ne_nil_of_ended {l p : Pos} {w rest : List Token} {f : Located SyntaxFault}
    {outer outer' : List OpenBlock} {done done' : List (Stmt Unit)}
    (hr : rest.dropWhile (·.lexeme != .symbol .semicolon) = [])
    (hm : Moves outer done w (Item.first rest (.eof p)) (.fault f outer' done')) :
    w ++ rest ≠ [] := by
  intro h
  have htwo := (hm.faults_of_fault (l := l) hr).1
  rw [h] at htwo
  rcases outer with _ | ⟨o, outer⟩
  · rw [faults_of_eof] at htwo
    cases htwo
  · rw [faults_of_unclosed] at htwo
    cases htwo

/-- The faults found from a place on are spaced over the unread tokens. -/
theorem spaced_faults (l : Pos) (ts : List Token) (outer : List OpenBlock)
    (done : List (Stmt Unit)) (p : Pos) :
    Stream.Spaced ⟨ts, .eof p⟩ (⟨⟨l, ts, .eof p⟩, outer, done⟩ : ParseState).faults := by
  induction l, ts, outer, done using step_induction p with
  | nil l outer done =>
    rcases outer with _ | ⟨o, outer⟩
    · rw [faults_of_eof]
      exact Stream.spaced_nil
    · rw [faults_of_unclosed]
      exact Stream.spaced_end rfl
  | @semicolon l q w rest _ _ _ _ _ hm ih =>
    rw [hm.leads_semicolon.faults]
    exact (ih.skip [Symbol.token .semicolon q]).skip w
  | @missing l w rest _ _ _ _ _ hw hs hm ih =>
    rw [(hm.leads_missing hs).faults]
    -- The fault stands at the last token that is taken.
    obtain ⟨u, t, rfl, hl⟩ := Token.exists_concat hw
    rw [List.append_assoc]
    exact (ih.cons (hl l)).skip u
  | @enter l w rest _ _ _ _ hw hm ih =>
    rw [hm.leads_enter.faults]
    exact ih.skip w
  | @resumed l w rest t rest' f _ _ _ _ hr hf hm ih =>
    rw [(hm.leads_fault hr).faults]
    -- The fault stands at the first token that is skipped.
    obtain ⟨t₀, u, rfl⟩ := exists_cons_of_resumed hr
    exact ((ih.skip u).cons hf).skip w
  | @ended l w rest f _ _ _ _ hr hf hm =>
    rw [(hm.faults_of_fault hr).1]
    cases rest with
    | nil =>
      have hne := ne_nil_of_ended (l := l) hr hm
      exact Stream.spaced_end_twice hne hf rfl
    | cons t₀ rest =>
      have hend := (Stream.spaced_end (f := ⟨.missingSemicolon, p⟩) rfl).skip rest
      rw [List.append_nil] at hend
      exact (hend.cons hf).skip w

end ParseState

/-- If parsing finds syntax faults, they stand at items of the stream that are met one after
    the other, but that the last two faults may both stand at the end; and there are no more
    faults than items. -/
theorem Stream.inOrder_of_parse_eq_error {s : Stream} {fs : List (Located SyntaxFault)}
    (h : s.parse.result = .error (.syntactic fs)) :
    (∃ is, s.InOrder is ∧ fs.map (·.pos) = is.map Item.pos) ∧ fs.length ≤ s.items.length := by
  obtain ⟨ts, p | f⟩ := s
  · have hfaults := Stream.faults_parse ts p
    rw [h] at hfaults
    have hspaced := ParseState.spaced_faults .start ts [] [] p
    obtain rfl : fs = (ParseState.ofStream ⟨ts, .eof p⟩).faults := hfaults
    exact ⟨hspaced.inOrder, hspaced.length_le⟩
  · rw [Stream.result_of_fault] at h
    cases h

/-- In `print ; read x print` there are four faults: at the semicolon, after `x`, and two at the
    end. -/
theorem Stream.inOrder_of_print_twice :
    let s : Stream := ⟨[Keyword.token .printK ⟨1, 1⟩, Symbol.token .semicolon ⟨1, 7⟩,
      Keyword.token .readK ⟨1, 9⟩, .ofName "x" ⟨1, 14⟩, Keyword.token .printK ⟨1, 16⟩],
      .eof ⟨1, 21⟩⟩
    let fs : List (Located SyntaxFault) := [⟨.unexpected (.symbol .semicolon) [], ⟨1, 7⟩⟩,
      ⟨.missingSemicolon, ⟨1, 14⟩⟩, ⟨.unexpected .eof [], ⟨1, 21⟩⟩, ⟨.missingSemicolon, ⟨1, 21⟩⟩]
    s.parse.result = .error (.syntactic fs) ∧
      (∃ is, s.InOrder is ∧ fs.map (·.pos) = is.map Item.pos) ∧ fs.length ≤ s.items.length := by
  intro s fs
  have hfaults : (ParseState.ofStream s).faults = fs := by decide +kernel
  have h : s.parse.result = .error (.syntactic fs) := Stream.parse_eq_error hfaults
  exact ⟨h, Stream.inOrder_of_parse_eq_error h⟩

end MiniPL
