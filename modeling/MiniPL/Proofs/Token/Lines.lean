import MiniPL.Proofs.Syntax.Relocation
import MiniPL.Proofs.Token.LongestMatch

/-!
# One text below another

A line feed ends whatever goes on to the end of a text: a word, a number, a symbol, a line comment.
So a text that is cut to its end is cut in the same way if another text stands below it
(`Piece.Cut.newline`), and what the other text comes to does not depend on the line where it starts
(`Cursor.scan_down`): the tokens are those of both texts (`Stream.ofSource_below`).
-/

namespace MiniPL

/-! ## Positions in lines further down -/

namespace Pos

/-- The position `n` lines down. -/
def down (n : Nat) (p : Pos) : Pos := ⟨p.line + n, p.column⟩

theorem after_down (n : Nat) (p : Pos) (c : Char) : (p.down n).after c = (p.after c).down n := by
  unfold after
  split
  · exact congrArg (Pos.mk · 1) (Int.add_right_comm ..)
  · rfl

theorem advance_down (n : Nat) (p : Pos) (cs : List Char) :
    (p.down n).advance cs = (p.advance cs).down n := by
  induction cs generalizing p with
  | nil => rfl
  | cons c cs ih => rw [advance_cons, advance_cons, after_down, ih]

theorem line_advance (p : Pos) (cs : List Char) :
    (p.advance cs).line = p.line + cs.count '\n' := by
  induction cs generalizing p with
  | nil => simp
  | cons c cs ih =>
    rw [advance_cons, ih, after, List.count_cons]
    split
    · next hc => simp only [hc, beq_self_eq_true, if_true]; omega
    · next hc => simp only [beq_iff_eq, hc, if_false]; omega

/-- After a line feed comes the start of a line. -/
theorem advance_concat_newline (cs : List Char) :
    start.advance (cs ++ ['\n']) = start.down (cs.count '\n' + 1) := by
  rw [advance_append, advance_cons, advance_nil, after, if_pos rfl, line_advance, down,
    Int.add_assoc]
  rfl

end Pos

/-! ## Before a line feed -/

/-- What holds of a line feed, and of the character that comes next, if there is one, holds of the
    next one if a line feed comes at the end. -/
theorem forall_head?_newline {φ : Char → Prop} {text : List Char} (h : ∀ c ∈ text.head?, φ c)
    (hline : φ '\n') (rest : List Char) : ∀ c ∈ (text ++ '\n' :: rest).head?, φ c := by
  cases text with
  | nil =>
    rintro c ⟨⟩
    exact hline
  | cons d text => exact h

theorem Gap.Fills.newline {gap after : List Char} (h : Fills gap after) (rest : List Char) :
    Fills gap (after ++ '\n' :: rest) := by
  induction h with
  | nil => exact .nil
  | space hc _ ih => exact .space hc ih
  | line hbody hend _ ih =>
    refine .line hbody ?_ ih
    rw [← List.append_assoc]
    exact forall_head?_newline hend rfl rest
  | block hbody _ ih => exact .block hbody ih

namespace Lexeme

variable {l : Lexeme} {word after : List Char}

theorem EndsBefore.newline (h : l.EndsBefore after) (rest : List Char) :
    l.EndsBefore (after ++ '\n' :: rest) := by
  refine forall_head?_newline h ?_ rest
  have hpart : Text.isNamePart '\n' = false := by decide
  have hint : '\n'.isDigit = false ∧ Text.isNameStart '\n' = false := by decide
  cases l with
  | symbol s => cases s <;> decide
  | keyword k => exact hpart
  | name x => exact hpart
  | int digits => exact hint
  | text content => trivial

/-- A line feed does not go on with a lexeme. -/
theorem Maximal.newline (h : l.Maximal word after) (rest : List Char) :
    l.Maximal word (after ++ '\n' :: rest) :=
  h.written.maximal (h.endsBefore.newline rest) fun e =>
    forall_head?_newline (h.noComment e) (by decide) rest

end Lexeme

/-- Pieces are cut in the same way if a line feed comes after them. -/
theorem Piece.Cut.newline {pieces : List Piece} {after : List Char} (h : Cut pieces after)
    (rest : List Char) : Cut pieces (after ++ '\n' :: rest) := by
  induction pieces with
  | nil => trivial
  | cons x pieces ih =>
    obtain ⟨hgap, hl, hrest⟩ := h
    have hgap := hgap.newline rest
    have hl := hl.newline rest
    rw [List.append_assoc, List.append_assoc] at hgap
    rw [List.append_assoc] at hl
    exact ⟨hgap, hl, ih hrest⟩

/-! ## Streams -/

namespace Cursor

/-- A gap may be skipped before what is next is looked for. -/
theorem next_append {gap after : List Char} (h : Gap.Fills gap after) (p : Pos) :
    (⟨p, gap ++ after⟩ : Cursor).next = (⟨p.advance gap, after⟩ : Cursor).next := by
  -- All of the gap before the next lexeme starts with `gap`.
  obtain ⟨gap', rest, rfl, hgap', hrest⟩ := Gap.exists_fills after
  have hskip : (⟨p, gap ++ (gap' ++ rest)⟩ : Cursor).skip (gap.length + gap'.length) =
      (⟨p.advance gap, gap' ++ rest⟩ : Cursor).skip gap'.length := by
    rw [← List.append_assoc, ← List.length_append, skip_append, skip_append, Pos.advance_append]
  have hend : (⟨p, gap ++ (gap' ++ rest)⟩ : Cursor).skip (gap ++ (gap' ++ rest)).length =
      (⟨p.advance gap, gap' ++ rest⟩ : Cursor).skip (gap' ++ rest).length := by
    have h := skip_append p (gap ++ (gap' ++ rest)) []
    have h' := skip_append (p.advance gap) (gap' ++ rest) []
    rw [List.append_nil] at h h'
    rw [h, h', Pos.advance_append]
  have hm := Gap.measure_append h 0
  rw [Gap.measure_append hgap', Nat.zero_add] at hm
  have hm' := Gap.measure_append hgap' 0
  rw [Nat.zero_add] at hm'
  unfold next
  rcases hrest with hover | hopen
  · rw [hm, hm', Gap.measure_of_over hover, Gap.measure_of_over hover]
    simp only [hskip]
  · rw [hm, hm', Gap.measure_of_unclosed hopen, Gap.measure_of_unclosed hopen]
    simp only [hskip, hend]

theorem scan_congr {c c' : Cursor} (h : c.next = c'.next) : c.scan = c'.scan := by
  rcases hn : c'.next with ⟨r | t | p, d⟩
  · rw [scan_of_fault (h.trans hn), scan_of_fault hn]
  · rw [scan_of_token (h.trans hn), scan_of_token hn]
  · rw [scan_of_eof (h.trans hn), scan_of_eof hn]

end Cursor

theorem Piece.tokens_down (n : Nat) (p : Pos) (pieces : List Piece) :
    tokens (p.down n) pieces = (tokens p pieces).map (·.relocate (Pos.down n)) := by
  induction pieces generalizing p with
  | nil => rfl
  | cons x pieces ih =>
    rw [tokens, tokens, List.map_cons, Pos.advance_down, Pos.advance_down, ih]
    rfl

/-- The stream of a text that starts some lines further down. -/
theorem Cursor.scan_down (n : Nat) (p : Pos) (text : List Char) :
    (⟨p.down n, text⟩ : Cursor).scan.1 =
      (⟨p, text⟩ : Cursor).scan.1.relocate (Pos.down n) := by
  obtain ⟨pieces, after, rfl, hcut, hstop⟩ := Piece.exists_cut text
  rw [scan_append hcut, scan_append hcut, Piece.tokens_down, Pos.advance_down]
  cases hstop with
  | fills hlast =>
    rw [scan_of_fills hlast, scan_of_fills hlast, Pos.advance_down, List.append_nil,
      List.append_nil]
    rfl
  | incomplete hgap hbad =>
    rw [scan_of_incomplete hgap hbad, scan_of_incomplete hgap hbad, Pos.advance_down,
      List.append_nil, List.append_nil]
    rfl

/-- If the text `a` has tokens up to its end, the text with `b` below it has the tokens of `a`, and
    then those of `b`. -/
theorem Cursor.scan_below {p q : Pos} {a : List Char} {ts : List Token}
    (ha : (⟨p, a⟩ : Cursor).scan.1 = ⟨ts, .eof q⟩) (b : List Char) :
    (⟨p, a ++ '\n' :: b⟩ : Cursor).scan.1 =
      ⟨ts ++ (⟨p.advance (a ++ ['\n']), b⟩ : Cursor).scan.1.tokens,
        (⟨p.advance (a ++ ['\n']), b⟩ : Cursor).scan.1.ending⟩ := by
  obtain ⟨pieces, last, rfl, hcut, hstop⟩ := Piece.exists_cut a
  rw [scan_append hcut] at ha
  cases hstop with
  | fills hlast =>
    rw [scan_of_fills hlast, List.append_nil] at ha
    obtain rfl := (Stream.mk.inj ha).1
    -- What is left of `a`, and the line feed, are a gap before `b`.
    have hlast := scan_congr (next_append (hlast.newline b) (p.advance (Piece.text pieces)))
    have hfeed := scan_congr (next_append (Gap.Fills.space (c := '\n') rfl .nil : Gap.Fills _ b)
      ((p.advance (Piece.text pieces)).advance last))
    rw [List.nil_append] at hlast
    rw [List.singleton_append] at hfeed
    rw [List.append_assoc, scan_append (hcut.newline b), hlast, hfeed, ← Pos.advance_append,
      ← Pos.advance_append, List.append_assoc]
  | incomplete hgap hbad =>
    rw [scan_of_incomplete hgap hbad] at ha
    cases (Stream.mk.inj ha).2

/-- If the text `a` has tokens up to its end, the text with `b` below it has the tokens of `a`, and
    then what `b` comes to, as many lines further down as there are in `a`. -/
theorem Stream.ofSource_below {a b : String} {ts : List Token} {p : Pos}
    (ha : ofSource a = ⟨ts, .eof p⟩) (hb : b ≠ "") :
    ofSource (a ++ "\n" ++ b) =
      ⟨ts ++ ((ofSource b).relocate (Pos.down (a.toList.count '\n' + 1))).tokens,
        ((ofSource b).relocate (Pos.down (a.toList.count '\n' + 1))).ending⟩ := by
  have htext : (a ++ "\n" ++ b).toList = a.toList ++ '\n' :: b.toList := by
    rw [String.toList_append, String.toList_append, List.append_assoc]
    rfl
  have hne : a ++ "\n" ++ b ≠ "" := by
    intro h
    rw [h] at htext
    simp at htext
  have hna : a ≠ "" := by
    rintro rfl
    cases ha
  rw [ofSource, if_neg hna, Cursor.ofText] at ha
  rw [ofSource, if_neg hne, Cursor.ofText, htext, Cursor.scan_below ha, Pos.advance_concat_newline,
    Cursor.scan_down, ofSource, if_neg hb, Cursor.ofText]

namespace Stream

theorem exists_ending_of_fault?_eq_none {s : Stream} (h : s.fault? = none) :
    ∃ p, s.ending = .eof p := by
  obtain ⟨ts, e⟩ := s
  cases e with
  | eof p => exact ⟨p, rfl⟩
  | fault r => cases h

/-- **One text below another.** Let `a` be a text without a fault, which is not empty then. With a
    line feed and the text `b` after it, it has its own tokens and then those of `b`, one line and
    as many lines as `a` has line feeds further down, in the same columns. It ends where `b` ends,
    and if that is with a fault, then with the same fault. -/
theorem ofSource_append_newline {a b : String} (ha : (ofSource a).fault? = none) (hb : b ≠ "") :
    let below (p : Pos) : Pos := ⟨p.line + (1 + a.toList.count '\n'), p.column⟩
    (ofSource (a ++ "\n" ++ b)).tokens =
        (ofSource a).tokens ++ (ofSource b).tokens.map (fun t => ⟨t.lexeme, below t.pos⟩) ∧
      (∀ p, (ofSource b).ending = .eof p →
        (ofSource (a ++ "\n" ++ b)).ending = .eof (below p)) ∧
      ∀ r, (ofSource b).ending = .fault r →
        (ofSource (a ++ "\n" ++ b)).ending = .fault ⟨r.thing, below r.pos⟩ := by
  intro below
  obtain ⟨p, hp⟩ := exists_ending_of_fault?_eq_none ha
  have hbelow : Pos.down (a.toList.count '\n' + 1) = below := by
    funext q
    exact congrArg (Pos.mk · q.column) (by omega)
  have hwhole := ofSource_below (congrArg (mk (ofSource a).tokens) hp) hb
  rw [hbelow] at hwhole
  have hending := congrArg ending hwhole
  refine ⟨congrArg tokens hwhole, fun q hq => ?_, fun r hr => ?_⟩
  · exact hending.trans (congrArg (End.relocate below) hq)
  · exact hending.trans (congrArg (End.relocate below) hr)

/-- A line comment ends with its line, and a text literal that is not closed is found further down. -/
theorem ofSource_append_newline_of_fault :
    (ofSource "print 1..n // do").fault? = none ∧ "\tx\n\"a\n" ≠ "" ∧
      (ofSource ("print 1..n // do" ++ "\n" ++ "\tx\n\"a\n")).tokens =
        [⟨.keyword .printK, ⟨1, 1⟩⟩, ⟨.int "1", ⟨1, 7⟩⟩, ⟨.symbol .range, ⟨1, 8⟩⟩,
          ⟨.name "n", ⟨1, 10⟩⟩, ⟨.name "x", ⟨2, 2⟩⟩] ∧
      (ofSource ("print 1..n // do" ++ "\n" ++ "\tx\n\"a\n")).ending =
        .fault ⟨.unterminatedText "a", ⟨3, 1⟩⟩ := by
  have ha : (ofSource "print 1..n // do").fault? = none := by decide +kernel
  have hb : "\tx\n\"a\n" ≠ "" := by decide
  obtain ⟨htokens, -, hfault⟩ := ofSource_append_newline ha hb
  refine ⟨ha, hb, htokens.trans ?_, (hfault ⟨.unterminatedText "a", ⟨2, 1⟩⟩ ?_).trans ?_⟩
  all_goals decide +kernel

end Stream

end MiniPL
