import MiniPL.Proofs.Token.Faults
import MiniPL.Token.Stream

/-!
# The longest match

A program text is cut into *pieces*: each one is a gap and a lexeme after it, and after the
last one there may be one more gap. Every lexeme is the longest one where it stands
(`Piece.Cut`). There is at most one way to cut a whole text (`Divides`), and if there is one,
its lexemes are the tokens of the text. Otherwise the text is cut as far as possible, and
where that ends there is what cannot be completed, which is the fault that is reported
(`Stream.ofSource_longest_match`).
-/

namespace MiniPL

/-- A gap and a lexeme after it, with how the lexeme is written. -/
structure Piece where
  gap : List Char
  lexeme : Lexeme
  word : List Char

namespace Piece

/-- The text of pieces in a row. -/
def text : List Piece → List Char
  | [] => []
  | x :: rest => x.gap ++ (x.word ++ text rest)

/-- The tokens of pieces in a row, the first of which starts at `p`. -/
def tokens (p : Pos) : List Piece → List Token
  | [] => []
  | x :: rest => ⟨x.lexeme, p.advance x.gap⟩ :: tokens (p.advance (x.gap ++ x.word)) rest

/-- Whether a text is cut rightly, with `after` after the pieces: a gap stands before each
    lexeme, and each lexeme is the longest one. -/
def Cut : List Piece → (after : List Char) → Prop
  | [], _ => True
  | x :: rest, after =>
    Gap.Fills x.gap (x.word ++ (text rest ++ after)) ∧
      x.lexeme.Maximal x.word (text rest ++ after) ∧ Cut rest after

end Piece

/-- Whether the whole of a text is cut into pieces and a last gap. -/
structure Divides (source : List Char) (pieces : List Piece) (last : List Char) : Prop where
  text_eq : source = Piece.text pieces ++ last
  cut : Piece.Cut pieces last
  fills : Gap.Fills last []

/-! ## What is next -/

namespace Cursor

theorem skip_append (p : Pos) (w after : List Char) :
    (⟨p, w ++ after⟩ : Cursor).skip w.length = ⟨p.advance w, after⟩ := by
  simp [skip]

/-- A gap is skipped, and the longest lexeme is taken. -/
theorem next_of_maximal {p : Pos} {l : Lexeme} {gap word after : List Char}
    (hgap : Gap.Fills gap (word ++ after)) (hl : l.Maximal word after) :
    (⟨p, gap ++ (word ++ after)⟩ : Cursor).next =
      (.ok (.token ⟨l, p.advance gap⟩), ⟨p.advance (gap ++ word), after⟩) := by
  obtain ⟨c, cs, hc⟩ := List.exists_cons_of_ne_nil
    (List.append_ne_nil_of_left_ne_nil hl.written.ne_nil after)
  have hm := Gap.measure_append hgap 0
  rw [Gap.measure_of_over hl.over, Nat.zero_add] at hm
  rw [next, hm]
  simp only [skip_append]
  rw [hc]
  simp only [hl.recognize hc]
  rw [← hc, skip_append, Pos.advance_append]

/-- After a last gap comes the end of the program. -/
theorem next_of_fills {p : Pos} {last : List Char} (h : Gap.Fills last []) :
    (⟨p, last⟩ : Cursor).next = (.ok (.eof (p.advance last)), ⟨p.advance last, []⟩) := by
  have hm := Gap.measure_append h 0
  rw [Gap.measure, Nat.zero_add, List.append_nil] at hm
  rw [next, hm]
  simp [skip]

/-- What cannot be completed is a fault. -/
theorem next_of_incomplete {p : Pos} {gap bad : List Char} {f : LexicalFault} {offset : Nat}
    (hgap : Gap.Fills gap bad) (h : Lexeme.Incomplete bad f offset) :
    ∃ c, (⟨p, gap ++ bad⟩ : Cursor).next =
      (.error ⟨f, p.advance (gap ++ bad.take offset)⟩, c) := by
  have hm := Gap.measure_append hgap 0
  rcases h.over_or_unclosed with hover | ⟨hopen, rfl, rfl⟩
  · obtain ⟨d, ds, k, rfl, hk⟩ := h.recognize hover
    rw [Gap.measure_of_over hover, Nat.zero_add] at hm
    rw [next, hm]
    simp only [skip_append, hk, pos_skip, Pos.advance_append]
    exact ⟨_, rfl⟩
  · rw [Gap.measure_of_unclosed hopen, Nat.zero_add] at hm
    rw [next, hm]
    simp only [skip_append, List.take_zero, List.append_nil]
    exact ⟨_, rfl⟩

/-! ## The stream -/

/-- The stream of a text that is cut has the tokens of the pieces first. -/
theorem scan_append {pieces : List Piece} {after : List Char} (h : Piece.Cut pieces after)
    (p : Pos) :
    (⟨p, Piece.text pieces ++ after⟩ : Cursor).scan.1 =
      ⟨Piece.tokens p pieces ++
          (⟨p.advance (Piece.text pieces), after⟩ : Cursor).scan.1.tokens,
        (⟨p.advance (Piece.text pieces), after⟩ : Cursor).scan.1.ending⟩ := by
  induction pieces generalizing p with
  | nil => rfl
  | cons x rest ih =>
    obtain ⟨hgap, hl, hrest⟩ := h
    have hnext := next_of_maximal (p := p) hgap hl
    rw [Piece.text, List.append_assoc, List.append_assoc, scan_of_token hnext, ih hrest]
    simp only [Piece.tokens, List.cons_append, Pos.advance_append]

theorem scan_of_fills {last : List Char} (h : Gap.Fills last []) (p : Pos) :
    (⟨p, last⟩ : Cursor).scan.1 = ⟨[], .eof (p.advance last)⟩ := by
  rw [scan_of_eof (next_of_fills h)]

theorem scan_of_incomplete {gap bad : List Char} {f : LexicalFault} {offset : Nat}
    (hgap : Gap.Fills gap bad) (h : Lexeme.Incomplete bad f offset) (p : Pos) :
    (⟨p, gap ++ bad⟩ : Cursor).scan.1 =
      ⟨[], .fault ⟨f, p.advance (gap ++ bad.take offset)⟩⟩ := by
  obtain ⟨c, hnext⟩ := next_of_incomplete (p := p) hgap h
  rw [scan_of_fault hnext]

end Cursor

/-- The stream of a text that is cut to its end. -/
theorem Divides.ofSource {source : String} (hne : source ≠ "") {pieces : List Piece}
    {last : List Char} (h : Divides source.toList pieces last) :
    Stream.ofSource source =
      ⟨Piece.tokens .start pieces, .eof (Pos.start.advance source.toList)⟩ := by
  rw [Stream.ofSource, if_neg hne, Cursor.ofText, h.text_eq, Cursor.scan_append h.cut,
    Cursor.scan_of_fills h.fills, List.append_nil, Pos.advance_append]

/-! ## Cutting a text -/

namespace Piece

/-- Whether a text goes on with no piece: a gap is left, or what cannot be completed. -/
inductive Stops : (after : List Char) → Prop
  | fills {last : List Char} : Gap.Fills last [] → Stops last
  | incomplete {gap bad : List Char} {f : LexicalFault} {offset : Nat} :
    Gap.Fills gap bad → Lexeme.Incomplete bad f offset → Stops (gap ++ bad)

/-- Every text can be cut as far as possible. -/
theorem exists_cut (source : List Char) :
    ∃ pieces after, source = text pieces ++ after ∧ Cut pieces after ∧ Stops after := by
  obtain ⟨gap, rest, rfl, hgap, hover | hopen⟩ := Gap.exists_fills source
  · by_cases hne : rest = []
    · subst hne
      exact ⟨[], gap ++ [], rfl, trivial, .fills (by rwa [List.append_nil])⟩
    rcases Lexeme.exists_maximal_or_incomplete hover hne with
      ⟨l, word, after, rfl, hl⟩ | ⟨f, offset, hf⟩
    · -- The text after the lexeme is shorter.
      have hlt : after.length < (gap ++ (word ++ after)).length := by
        have := List.length_pos_iff.2 hl.written.ne_nil
        simp only [List.length_append]
        omega
      obtain ⟨pieces, after, rfl, hcut, hstop⟩ := exists_cut after
      exact ⟨⟨gap, l, word⟩ :: pieces, after, by simp [text], ⟨hgap, hl, hcut⟩, hstop⟩
    · exact ⟨[], gap ++ rest, rfl, trivial, .incomplete hgap hf⟩
  · exact ⟨[], gap ++ rest, rfl, trivial, .incomplete hgap (.comment hopen)⟩
termination_by source.length

/-- Where a text stops, there is no piece. -/
theorem Stops.ne {stop : List Char} (h : Stops stop) {l : Lexeme} {gap word after : List Char}
    (hgap : Gap.Fills gap (word ++ after)) (hl : l.Maximal word after) :
    gap ++ (word ++ after) ≠ stop := by
  intro heq
  have hne := List.append_ne_nil_of_left_ne_nil hl.written.ne_nil after
  cases h with
  | fills hlast =>
    rw [← List.append_nil stop] at heq
    have hnil : Gap.Over [] := ⟨nofun, by simp, by simp⟩
    exact hne (hgap.eq_of_over hl.over hlast hnil heq).2
  | @incomplete gap' bad f offset hgap' hbad =>
    rcases hbad.over_or_unclosed with hover | ⟨hopen, -, -⟩
    · obtain ⟨-, hrest⟩ := hgap.eq_of_over hl.over hgap' hover heq
      obtain ⟨c, cs, k, rfl, hk⟩ := hbad.recognize hover
      cases hk.symm.trans (hl.recognize hrest)
    · -- The gap before the comment is skipped, and the comment is not.
      have hm := Gap.measure_append hgap' 0
      rw [← heq, Gap.measure_append hgap, Gap.measure_of_over hl.over,
        Gap.measure_of_unclosed hopen] at hm
      cases hm

/-- A text that is cut as far as possible cannot be cut otherwise. -/
theorem Cut.isPrefix {pieces pieces' : List Piece} {after after' : List Char}
    (h : Cut pieces after) (hstop : Stops after) (h' : Cut pieces' after')
    (heq : text pieces' ++ after' = text pieces ++ after) : pieces' <+: pieces := by
  induction pieces' generalizing pieces with
  | nil => exact List.nil_prefix
  | cons x' rest' ih =>
    obtain ⟨hgap', hl', hrest'⟩ := h'
    rw [text, List.append_assoc, List.append_assoc] at heq
    cases pieces with
    | nil => exact absurd heq (hstop.ne hgap' hl')
    | cons x rest =>
      obtain ⟨hgap, hl, hrest⟩ := h
      rw [text, List.append_assoc, List.append_assoc] at heq
      obtain ⟨hgaps, hwords⟩ := hgap'.eq_of_over hl'.over hgap hl.over heq
      obtain ⟨hl, hword, hafter⟩ := hl'.unique hl hwords
      obtain rfl : x' = x := by
        cases x
        cases x'
        simp_all
      exact (List.prefix_cons_inj x').2 (ih hrest hrest' hafter)

end Piece

/-- There is only one way to cut a whole text. -/
theorem Divides.unique {source last last' : List Char} {pieces pieces' : List Piece}
    (h : Divides source pieces last) (h' : Divides source pieces' last') :
    pieces = pieces' ∧ last = last' := by
  have heq := h.text_eq.symm.trans h'.text_eq
  have hle := (h'.cut.isPrefix (.fills h'.fills) h.cut heq).length_le
  have hge := h.cut.isPrefix (.fills h.fills) h'.cut heq.symm
  obtain rfl := (hge.eq_of_length_le hle).symm
  exact ⟨rfl, List.append_cancel_left heq⟩

/-! ## Kinds and texts -/

namespace Lexeme

/-- A text is written for one lexeme only. -/
theorem Written.unique {l l' : Lexeme} {word : List Char} (h : l.Written word)
    (h' : l'.Written word) : l = l' := by
  obtain ⟨c, cs, hc⟩ := List.exists_cons_of_ne_nil h.ne_nil
  have hc' : word ++ [] = c :: cs := by rw [List.append_nil, hc]
  have hend : ∀ l : Lexeme, l.EndsBefore [] := fun _ _ hd => nomatch hd
  have hl := recognize_of_endsBefore h (hend l) hc'
  exact (Recognized.lexeme.inj (hl.symm.trans (recognize_of_endsBefore h' (hend l') hc'))).1

/-- A lexeme is a keyword if and only if it is written like one. -/
theorem Written.eq_keyword_iff {l : Lexeme} {word : List Char} (h : l.Written word)
    (k : Keyword) : l = .keyword k ↔ k.text.toList = word := by
  constructor
  · rintro rfl
    cases h
    rfl
  · rintro rfl
    exact h.unique (.keyword k)

/-- A lexeme shows as it is written, but for text literals, which show their content between
    the quotes. -/
theorem Written.shown {l : Lexeme} {word : List Char} (h : l.Written word) :
    l.shown.toList = word ∨ ∃ body content, Spells body content ∧
      word = '"' :: (body ++ ['"']) ∧ l.shown.toList = '"' :: (content ++ ['"']) := by
  cases h with
  | symbol s => exact .inl rfl
  | keyword k => exact .inl rfl
  | name _ _ => exact .inl String.toList_ofList
  | int _ _ => exact .inl String.toList_ofList
  | text hspells => exact .inr ⟨_, _, hspells, rfl, by simp [Lexeme.shown]⟩

end Lexeme

/-- A text is cut as far as possible, into the tokens of its stream. Then it ends with a gap, or
    with what cannot be completed. -/
theorem Stream.exists_cut {source : String} (h : source ≠ "") : ∃ pieces after,
    source.toList = Piece.text pieces ++ after ∧ Piece.Cut pieces after ∧
      (ofSource source).tokens = Piece.tokens .start pieces ∧
      (Gap.Fills after [] ∧ (ofSource source).ending = .eof (Pos.start.advance source.toList) ∨
        ∃ gap bad f offset, after = gap ++ bad ∧ Lexeme.Incomplete bad f offset ∧
          (ofSource source).ending =
            .fault ⟨f, Pos.start.advance (Piece.text pieces ++ (gap ++ bad.take offset))⟩) := by
  obtain ⟨pieces, after, heq, hcut, hstop⟩ := Piece.exists_cut source.toList
  refine ⟨pieces, after, heq, hcut, ?_⟩
  rw [ofSource, if_neg h, Cursor.ofText, heq, Cursor.scan_append hcut]
  cases hstop with
  | fills hlast =>
    rw [Cursor.scan_of_fills hlast, List.append_nil, Pos.advance_append]
    exact ⟨rfl, .inl ⟨hlast, rfl⟩⟩
  | @incomplete gap bad f offset hgap hbad =>
    rw [Cursor.scan_of_incomplete hgap hbad, List.append_nil]
    exact ⟨rfl, .inr ⟨gap, bad, f, offset, rfl, hbad, by rw [Pos.advance_append _ (Piece.text _)]⟩⟩

/-- A text that is not empty has tokens up to its end if and only if it can be cut into gaps
    and longest lexemes. There is only one way to do so, and the tokens are these lexemes, each
    at its first character: it is a keyword if and only if it is written like one, and shows as
    it is written, but for the escapes in text literals. Otherwise the text has the tokens of
    the longest part at its start that can be cut, and then one fault, which is the first
    lexeme or comment that cannot be completed. -/
theorem Stream.ofSource_longest_match {source : String} (h : source ≠ "") :
    (∀ ts p, Stream.ofSource source = ⟨ts, .eof p⟩ ↔
      ∃ pieces last, Divides source.toList pieces last ∧ ts = Piece.tokens .start pieces ∧
        p = Pos.start.advance source.toList) ∧
    (∀ pieces last pieces' last', Divides source.toList pieces last →
      Divides source.toList pieces' last' → pieces = pieces' ∧ last = last') ∧
    (∀ (l : Lexeme) (word : List Char), l.Written word →
      (∀ k : Keyword, l = .keyword k ↔ k.text.toList = word) ∧
      (l.shown.toList = word ∨ ∃ body content, Lexeme.Spells body content ∧
        word = '"' :: (body ++ ['"']) ∧ l.shown.toList = '"' :: (content ++ ['"']))) ∧
    ((¬ ∃ pieces last, Divides source.toList pieces last) →
      ∃ pieces gap bad f offset, source.toList = Piece.text pieces ++ (gap ++ bad) ∧
        Piece.Cut pieces (gap ++ bad) ∧ Gap.Fills gap bad ∧ Lexeme.Incomplete bad f offset ∧
        Stream.ofSource source = ⟨Piece.tokens .start pieces,
          .fault ⟨f, Pos.start.advance (Piece.text pieces ++ (gap ++ bad.take offset))⟩⟩ ∧
        ∀ pieces' after', source.toList = Piece.text pieces' ++ after' →
          Piece.Cut pieces' after' → pieces' <+: pieces) := by
  -- The text is cut as far as possible, either to its end or up to a fault.
  obtain ⟨pieces, after, heq, hcut, hstop⟩ := Piece.exists_cut source.toList
  have hfault : ∀ {gap bad : List Char} {f : LexicalFault} {offset : Nat}, after = gap ++ bad →
      Gap.Fills gap bad → Lexeme.Incomplete bad f offset →
      Stream.ofSource source = ⟨Piece.tokens .start pieces,
        .fault ⟨f, Pos.start.advance (Piece.text pieces ++ (gap ++ bad.take offset))⟩⟩ := by
    rintro gap bad f offset rfl hgap hbad
    rw [Stream.ofSource, if_neg h, Cursor.ofText, heq, Cursor.scan_append hcut,
      Cursor.scan_of_incomplete hgap hbad, List.append_nil,
      Pos.advance_append _ (Piece.text pieces)]
  refine ⟨fun ts p => ⟨fun hts => ?_, ?_⟩, fun _ _ _ _ => Divides.unique, fun l word hw =>
    ⟨hw.eq_keyword_iff, hw.shown⟩, fun hnot => ?_⟩
  · cases hstop with
    | fills hlast =>
      have hdiv : Divides source.toList pieces after := ⟨heq, hcut, hlast⟩
      obtain ⟨rfl, hp⟩ := Stream.mk.inj (hts.symm.trans (hdiv.ofSource h))
      exact ⟨pieces, after, hdiv, rfl, Stream.End.eof.inj hp⟩
    | incomplete hgap hbad => cases hts.symm.trans (hfault rfl hgap hbad)
  · rintro ⟨pieces, last, hdiv, rfl, rfl⟩
    exact hdiv.ofSource h
  · cases hstop with
    | fills hlast => exact absurd ⟨pieces, after, heq, hcut, hlast⟩ hnot
    | @incomplete gap bad f offset hgap hbad =>
      refine ⟨pieces, gap, bad, f, offset, heq, hcut, hgap, hbad, hfault rfl hgap hbad, ?_⟩
      intro pieces' after' heq' hcut'
      exact hcut.isPrefix (.incomplete hgap hbad) hcut' (heq'.symm.trans heq)

/-- An unknown escape, after comments and without any space. -/
theorem Stream.ofSource_longest_match_of_escape :
    let source := "if1:=1..10/*/*///\n\"a\\q\""
    source ≠ "" ∧ ∃ pieces gap bad offset, source.toList = Piece.text pieces ++ (gap ++ bad) ∧
      Piece.Cut pieces (gap ++ bad) ∧ Gap.Fills gap bad ∧
      Lexeme.Incomplete bad (.unknownEscape "a" (some 'q')) offset ∧
      Pos.start.advance (Piece.text pieces ++ (gap ++ bad.take offset)) = ⟨2, 3⟩ := by
  intro source
  have hne : source ≠ "" := by decide
  obtain ⟨hiff, -, -, hfault⟩ := Stream.ofSource_longest_match hne
  have hf : (Stream.ofSource source).fault? = some ⟨.unknownEscape "a" (some 'q'), ⟨2, 3⟩⟩ := by
    decide +kernel
  have hnot : ¬ ∃ pieces last, Divides source.toList pieces last := by
    rintro ⟨pieces, last, hdiv⟩
    rw [(hiff _ _).2 ⟨pieces, last, hdiv, rfl, rfl⟩] at hf
    cases hf
  obtain ⟨pieces, gap, bad, f, offset, heq, hcut, hgap, hbad, hstream, -⟩ := hfault hnot
  rw [hstream, Stream.fault?, Option.some.injEq, Located.mk.injEq] at hf
  obtain ⟨rfl, hpos⟩ := hf
  exact ⟨hne, pieces, gap, bad, offset, heq, hcut, hgap, hbad, hpos⟩

end MiniPL
