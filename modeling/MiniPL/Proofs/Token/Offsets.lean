import Mathlib.Data.List.Induction
import MiniPL.Proofs.Token.LongestMatch
import MiniPL.Token.Lookahead

/-!
# Positions and offsets

Positions are counted while a text is read, character by character. What they come to is said
here of the text alone: the line and the column at an offset follow from the line feeds in front
of it (`Pos.ofOffset`).

* `Cursor.advance_reach`, `Cursor.reach_le`: how many characters a reader moves over in a step, of
  which there are always enough;
* `Cursor.steps_next`: one step finds an item where the text has it, not before the cursor;
* `Stream.exists_offsets`: the items of a whole text stand at offsets that increase, each item at
  the first character of its lexeme.
-/

namespace MiniPL

/-- The position of the character at an offset in the text, or that of the end of the text: how
    many line feeds stand before it, and how many characters since the last of them. -/
def Pos.ofOffset (text : List Char) (p : Nat) : Pos :=
  ⟨(text.take p).count '\n' + 1, ((text.take p).reverse.takeWhile (· != '\n')).length + 1⟩

example : Pos.ofOffset "var\n\tx".toList 5 = ⟨2, 2⟩ := by decide

/-- Counting while reading comes to the same. -/
theorem Pos.advance_take (text : List Char) (p : Nat) :
    Pos.start.advance (text.take p) = ofOffset text p := by
  rw [ofOffset]
  generalize text.take p = before
  induction before using List.reverseRecOn with
  | nil => rfl
  | append_singleton before c ih =>
    rw [advance_append, ih, advance_cons, advance_nil, after]
    by_cases hc : c = '\n'
    · simp [hc]
    · simp [hc, bne_iff_ne]

/-- The item is found at an offset of the text: the end of the program at its end, and a token
    where its lexeme is the longest one, at the first character of that. -/
inductive Item.StandsAt (text : List Char) : Item → (offset : Nat) → Prop
  | token {l : Lexeme} {word after : List Char} {p : Nat} :
    text.drop p = word ++ after → l.Maximal word after →
      StandsAt text (.token ⟨l, .ofOffset text p⟩) p
  | eof : StandsAt text (.eof (.ofOffset text text.length)) text.length

namespace Item.StandsAt

variable {text : List Char} {item : Item} {p : Nat}

theorem pos_eq (h : item.StandsAt text p) : item.pos = .ofOffset text p := by
  cases h <;> rfl

/-- What an item shows is in the text where it stands, unless it is a text literal, which may
    have escapes. -/
theorem shown_isPrefix (h : item.StandsAt text p) (hkind : item.kind ≠ .text) :
    item.shown.toList <+: text.drop p := by
  cases h with
  | @token l word after _ hdrop hl =>
    have hshown : l.shown.toList = word := by
      cases hl.written with
      | symbol _ => rfl
      | keyword _ => rfl
      | name _ _ => exact String.toList_ofList
      | int _ _ => exact String.toList_ofList
      | text _ => exact absurd rfl hkind
    exact ⟨after, by rw [hdrop, ← hshown]; rfl⟩
  | eof => exact List.nil_prefix

end Item.StandsAt

/-- The offset of a fault is in the text. -/
theorem Lexeme.Incomplete.offset_lt {text : List Char} {f : LexicalFault} {offset : Nat}
    (h : Incomplete text f offset) : offset < text.length := by
  cases h with
  | comment hopen =>
    obtain ⟨body, rfl, -⟩ := hopen
    exact Nat.zero_lt_succ _
  | digits _ _ _ =>
    exact List.length_pos_iff.2 (List.append_ne_nil_of_right_ne_nil _ (List.cons_ne_nil _ _))
  | _ => simp

/-! ## How far a step goes -/

namespace Recognized

/-- How much of the text has been read. -/
def length : Recognized → Nat
  | lexeme _ k => k
  | fault _ _ k => k

theorem length_text_le (content : List Char) (n : Nat) (cs : List Char) :
    (text content n cs).length ≤ n + cs.length := by
  fun_induction text content n cs with
  | case1 | case2 | case3 | case4 => simp [length]
  | case5 _ _ _ _ _ _ _ _ ih => simp only [List.length_cons]; omega
  | case6 => simp only [length, List.length_cons]; omega
  | case7 _ _ _ _ _ _ _ ih => simp only [List.length_cons]; omega

theorem length_number_le (cs : List Char) : (number cs).length ≤ cs.length := by
  have hle := (List.takeWhile_sublist (l := cs) Char.isDigit).length_le
  simp only [number]
  split
  · split <;> exact hle
  · exact hle

/-- Recognizing stays in the text. -/
theorem length_recognize_le (c : Char) (cs : List Char) :
    (recognize c cs).length ≤ (c :: cs).length := by
  have hpair {d : Char} (h : cs.head? = some d) : 2 ≤ (c :: cs).length := by
    obtain ⟨rest, rfl⟩ := List.head?_eq_some_iff.1 h
    simp
  fun_cases recognize c cs with
  | case1 => simp [length]
  | case2 _ _ h => exact hpair h
  | case3 => simp [length]
  | case4 _ _ _ h => exact hpair h
  | case5 => simp [length]
  | case6 => exact length_number_le _
  | case7 => exact (List.takeWhile_sublist _).length_le
  | case8 => exact Nat.le_trans (length_text_le [] 1 cs) (Nat.le_of_eq (Nat.add_comm ..))
  | case9 => exact Nat.zero_le _

end Recognized

namespace Cursor

/-- How many characters a step moves over: a gap, and what was read after it. -/
def reach (c : Cursor) : Nat :=
  match Gap.measure 0 c.rest with
  | .unclosed _ => c.rest.length
  | .closed n =>
    match c.rest.drop n with
    | [] => n
    | ch :: cs => n + (recognize ch cs).length

theorem skip_skip (c : Cursor) (m n : Nat) : (c.skip m).skip n = c.skip (m + n) := by
  simp only [skip, List.drop_drop, List.take_add, Pos.advance_append]

theorem next_snd (c : Cursor) : c.next.2 = c.skip c.reach := by
  cases hgap : Gap.measure 0 c.rest with
  | unclosed n => simp only [next, reach, hgap]
  | closed n =>
    cases hrest : c.rest.drop n with
    | nil => simp only [next, reach, hgap, rest_skip, hrest]
    | cons ch cs =>
      cases hl : recognize ch cs <;>
        simp only [next, reach, hgap, rest_skip, hrest, hl, skip_skip, Recognized.length]

/-- A step stays in the text. -/
theorem reach_le (c : Cursor) : c.reach ≤ c.rest.length := by
  obtain ⟨gap, after, hrest, hgap, hafter⟩ := Gap.exists_fills c.rest
  have hm := Gap.measure_append hgap 0
  rw [reach, hrest, hm, Nat.zero_add]
  rcases hafter with hover | hopen
  · rw [Gap.measure_of_over hover]
    simp only [List.drop_left]
    cases after with
    | nil => simp
    | cons ch cs =>
      have := Recognized.length_recognize_le ch cs
      simpa using this
  · simp only [Gap.measure_of_unclosed hopen, Nat.le_refl]

end Cursor

/-! ## One step -/

/-- What a reader at the offset `p` of the text may come to in one step: the next item or a fault,
    not before `p`, and the cursor after it, further on in the text. -/
inductive Cursor.Steps (text : List Char) (p : Nat) : Except Rejection Item × Cursor → Prop
  | token {t : Token} {q p' : Nat} :
    p ≤ q → q < p' → p' ≤ text.length → Item.StandsAt text (.token t) q →
      Steps text p (.ok (.token t), (⟨.start, text⟩ : Cursor).skip p')
  | eof {pos : Pos} :
    Item.StandsAt text (.eof pos) text.length →
      Steps text p (.ok (.eof pos), (⟨.start, text⟩ : Cursor).skip text.length)
  | fault {r : Rejection} {q p' : Nat} :
    p ≤ q → q < text.length → r.pos = .ofOffset text q → p' ≤ text.length →
      Steps text p (.error r, (⟨.start, text⟩ : Cursor).skip p')

namespace Cursor

variable {text : List Char} {p : Nat}

theorem skip_start (text : List Char) (p : Nat) :
    (⟨.start, text⟩ : Cursor).skip p = ⟨.ofOffset text p, text.drop p⟩ := by
  rw [skip, Pos.advance_take]

/-- The position after a part of the text that stands at an offset. -/
theorem advance_ofOffset {part after : List Char} (h : text.drop p = part ++ after) :
    (Pos.ofOffset text p).advance part = .ofOffset text (p + part.length) := by
  rw [← Pos.advance_take, ← Pos.advance_take, List.take_add, Pos.advance_append, h, List.take_left]

theorem drop_add_of_drop {part after : List Char} (h : text.drop p = part ++ after) :
    text.drop (p + part.length) = after := by
  rw [← List.drop_drop, h, List.drop_left]

/-- The cursor moves on in the text. -/
theorem exists_next_eq_skip (hp : p ≤ text.length) : ∃ p' ≤ text.length,
    ((⟨.start, text⟩ : Cursor).skip p).next.2 = (⟨.start, text⟩ : Cursor).skip p' := by
  have hreach := reach_le ((⟨.start, text⟩ : Cursor).skip p)
  rw [rest_skip, List.length_drop] at hreach
  change _ ≤ text.length - p at hreach
  refine ⟨p + ((⟨.start, text⟩ : Cursor).skip p).reach, by omega, by rw [next_snd, skip_skip]⟩

/-- A step from an offset in the text finds what stands there, after the gap that is skipped. -/
theorem steps_next (hp : p ≤ text.length) :
    Steps text p ((⟨.start, text⟩ : Cursor).skip p).next := by
  obtain ⟨gap, rest, hdrop, hgap, hafter⟩ := Gap.exists_fills (text.drop p)
  have hlength : p + gap.length + rest.length = text.length := by
    have := congrArg List.length hdrop
    rw [List.length_drop, List.length_append] at this
    omega
  have hcursor : (⟨.start, text⟩ : Cursor).skip p = ⟨.ofOffset text p, gap ++ rest⟩ := by
    rw [skip_start, hdrop]
  have hpos := advance_ofOffset hdrop
  have hrest := drop_add_of_drop hdrop
  -- What cannot be completed stops the reader in the text.
  have hfault {f : LexicalFault} {offset : Nat} (hbad : Lexeme.Incomplete rest f offset) :
      Steps text p ((⟨.start, text⟩ : Cursor).skip p).next := by
    obtain ⟨c, hnext⟩ := next_of_incomplete (p := .ofOffset text p) hgap hbad
    obtain ⟨p', hp', hc⟩ := exists_next_eq_skip hp
    have hlt := hbad.offset_lt
    rw [← hcursor] at hnext
    rw [hnext] at hc ⊢
    rw [show c = _ from hc]
    refine .fault (q := p + gap.length + offset) (by omega) (by omega) ?_ hp'
    have hbadPos := advance_ofOffset (hrest.trans (List.take_append_drop offset rest).symm)
    rw [List.length_take, Nat.min_eq_left (Nat.le_of_lt hlt)] at hbadPos
    rw [Pos.advance_append, hpos, hbadPos]
  rcases hafter with hover | hopen
  · by_cases hne : rest = []
    · subst hne
      rw [List.length_nil, Nat.add_zero] at hlength
      rw [hcursor, List.append_nil, next_of_fills hgap, hpos, ← hrest, ← skip_start, hlength]
      exact .eof .eof
    · rcases Lexeme.exists_maximal_or_incomplete hover hne with
        ⟨l, word, after, rfl, hl⟩ | ⟨f, offset, hf⟩
      · have hword := List.length_pos_iff.2 hl.written.ne_nil
        rw [List.length_append] at hlength
        rw [hcursor, next_of_maximal hgap hl, Pos.advance_append, hpos, advance_ofOffset hrest,
          ← drop_add_of_drop hrest, ← skip_start]
        exact .token (by omega) (by omega) (by omega) (.token hrest hl)
      · exact hfault hf
  · exact hfault (.comment hopen)

end Cursor

/-! ## Whole texts -/

/-- From an offset in a text on, the items stand at offsets that increase, and a fault is found
    after all of them. -/
theorem Cursor.exists_offsets_scan {text : List Char} {p : Nat} (hp : p ≤ text.length) :
    let s := ((⟨.start, text⟩ : Cursor).skip p).scan.1
    ∃ offsets : List Nat, offsets.Pairwise (· < ·) ∧ (∀ q ∈ offsets, p ≤ q) ∧
      List.Forall₂ (Item.StandsAt text) s.items offsets ∧
      ∀ r, s.ending = .fault r →
        ∃ q < text.length, r.pos = .ofOffset text q ∧ p ≤ q ∧ ∀ q' ∈ offsets, q' < q := by
  cases hnext : ((⟨.start, text⟩ : Cursor).skip p).next with
  | mk outcome c =>
  have hstep := steps_next hp
  rw [hnext] at hstep
  cases hstep with
  | @token t q p' hq hlt hp' ht =>
    obtain ⟨offsets, hinc, hle, hitems, hfault⟩ := exists_offsets_scan hp'
    rw [scan_of_token hnext]
    refine ⟨q :: offsets, List.pairwise_cons.2 ⟨fun q' hq' => ?_, hinc⟩, ?_, .cons ht hitems, ?_⟩
    · exact Nat.lt_of_lt_of_le hlt (hle q' hq')
    · rintro q' (_ | ⟨_, hq'⟩)
      · exact hq
      · have := hle q' hq'
        omega
    · intro r hr
      obtain ⟨q', hq', hpos, hpq', hall⟩ := hfault r hr
      refine ⟨q', hq', hpos, by omega, ?_⟩
      rintro q'' (_ | ⟨_, hq''⟩)
      · omega
      · exact hall q'' hq''
  | eof hpos =>
    rw [scan_of_eof hnext]
    refine ⟨[text.length], List.pairwise_singleton _ _, by simpa using hp, .cons hpos .nil, ?_⟩
    intro r hr
    cases hr
  | @fault r q p' hq hlt hpos hp' =>
    rw [scan_of_fault hnext]
    refine ⟨[], .nil, by simp, .nil, ?_⟩
    rintro _ ⟨⟩
    exact ⟨q, hlt, hpos, hq, by simp⟩
termination_by text.length - p
decreasing_by omega

/-! ## Readers -/

namespace Lookahead

/-- The reader comes from the start of the text by asking for items, and by looking at them
    beforehand. -/
inductive Reached (source : String) : Lookahead → Prop
  | start : Reached source (ofSource source)
  | next {l : Lookahead} : Reached source l → Reached source l.next.2
  | peek {l : Lookahead} : Reached source l → Reached source l.peek.2

/-- The reader stands in the text, and what it shows beforehand does so, too. -/
structure InText (source : String) (l : Lookahead) : Prop where
  cursor : ∃ p ≤ source.toList.length, l.cursor = (Cursor.ofText source).skip p
  peeked : ∀ item ∈ l.peeked?, ∃ p, Item.StandsAt source.toList item p
  untold : l.emptyUntold → source = ""

/-- The outcome is an item of the text, or a fault in it. -/
def Finds (source : String) : Except Rejection Item → Prop
  | .ok item => ∃ p, Item.StandsAt source.toList item p
  | .error r => source ≠ "" → ∃ p < source.toList.length, r.pos = .ofOffset source.toList p

variable {source : String} {l : Lookahead}

theorem InText.pull (h : InText source l) :
    Finds source l.pull.1 ∧ InText source l.pull.2 := by
  obtain ⟨⟨p, hp, hcursor⟩, hpeeked, huntold⟩ := h
  cases hempty : l.emptyUntold with
  | true =>
    rw [Lookahead.pull, if_pos hempty]
    exact ⟨fun hne => absurd (huntold hempty) hne, ⟨p, hp, hcursor⟩, hpeeked, nofun⟩
  | false =>
    have hstep := Cursor.steps_next hp
    rw [Lookahead.pull, if_neg (by simp [hempty]), hcursor]
    change Cursor.Steps _ p ((Cursor.ofText source).skip p).next at hstep
    cases hnext : ((Cursor.ofText source).skip p).next with
    | mk outcome c =>
    rw [hnext] at hstep
    cases hstep with
    | token _ _ hp' ht => exact ⟨⟨_, ht⟩, ⟨_, hp', rfl⟩, hpeeked, by simp [hempty]⟩
    | eof ht => exact ⟨⟨_, ht⟩, ⟨_, Nat.le_refl _, rfl⟩, hpeeked, by simp [hempty]⟩
    | fault _ hlt hpos hp' =>
      exact ⟨fun _ => ⟨_, hlt, hpos⟩, ⟨_, hp', rfl⟩, hpeeked, by simp [hempty]⟩

theorem InText.next (h : InText source l) :
    Finds source l.next.1 ∧ InText source l.next.2 := by
  cases hp : l.peeked? with
  | some item =>
    simp only [Lookahead.next, hp]
    exact ⟨h.peeked item hp, h.cursor, nofun, h.untold⟩
  | none =>
    simp only [Lookahead.next, hp]
    exact ⟨h.pull.1, h.pull.2.cursor, h.pull.2.peeked, h.pull.2.untold⟩

theorem InText.peek (h : InText source l) :
    Finds source l.peek.1 ∧ InText source l.peek.2 := by
  cases hp : l.peeked? with
  | some item =>
    simp only [Lookahead.peek, hp]
    exact ⟨h.peeked item hp, h⟩
  | none =>
    obtain ⟨hfinds, hcursor, hpeeked, huntold⟩ := h.pull
    cases hout : l.pull.1 with
    | ok item =>
      simp only [Lookahead.peek, hp, hout]
      rw [hout] at hfinds
      exact ⟨hfinds, hcursor, fun _ hitem => by cases hitem; exact hfinds, huntold⟩
    | error r =>
      simp only [Lookahead.peek, hp, hout]
      rw [hout] at hfinds
      exact ⟨hfinds, hcursor, hpeeked, huntold⟩

theorem Reached.inText (h : Reached source l) : InText source l := by
  induction h with
  | start => exact ⟨⟨0, Nat.zero_le _, rfl⟩, nofun, by simp [ofSource]⟩
  | next _ ih => exact ih.next.2
  | peek _ ih => exact ih.peek.2

end Lookahead

/-- The positions of a text are those of its characters. The items of every text stand at offsets
    that increase, each token where its lexeme is written and the end of the program at the end;
    the position of an item is that of its offset, and the text there starts with what the item
    shows, unless it is a text literal. A fault has the position of an offset, too, which comes
    after those of the items. A reader, whatever it was asked before, tells of nothing else, and
    moves over no more characters than there are. -/
theorem Stream.exists_offsets (source : String) :
    (∃ offsets : List Nat, offsets.Pairwise (· < ·) ∧
      List.Forall₂ (Item.StandsAt source.toList) (ofSource source).items offsets ∧
      ∀ r, (ofSource source).ending = .fault r → source ≠ "" →
        ∃ q < source.toList.length, r.pos = .ofOffset source.toList q ∧ ∀ q' ∈ offsets, q' < q) ∧
    (∀ item q, Item.StandsAt source.toList item q → item.pos = .ofOffset source.toList q ∧
      (item.kind ≠ .text → item.shown.toList <+: source.toList.drop q)) ∧
    ∀ l, Lookahead.Reached source l →
      Lookahead.Finds source l.next.1 ∧ Lookahead.Finds source l.peek.1 ∧
      ∃ p, l.cursor = (Cursor.ofText source).skip p ∧
        l.cursor.next.2 = l.cursor.skip l.cursor.reach ∧
        p + l.cursor.reach ≤ source.toList.length := by
  refine ⟨?_, fun item q h => ⟨h.pos_eq, h.shown_isPrefix⟩, fun l hl => ?_⟩
  · by_cases hne : source = ""
    · subst hne
      exact ⟨[], .nil, .nil, fun r _ h => absurd rfl h⟩
    obtain ⟨offsets, hinc, -, hitems, hfault⟩ :=
      Cursor.exists_offsets_scan (Nat.zero_le source.toList.length)
    rw [Stream.ofSource, if_neg hne]
    refine ⟨offsets, hinc, hitems, fun r hr _ => ?_⟩
    obtain ⟨q, hq, hpos, -, hall⟩ := hfault r hr
    exact ⟨q, hq, hpos, hall⟩
  · have hin := hl.inText
    obtain ⟨p, hp, hcursor⟩ := hin.cursor
    refine ⟨hin.next.1, hin.peek.1, p, hcursor, Cursor.next_snd _, ?_⟩
    have hreach := Cursor.reach_le l.cursor
    rw [hcursor, Cursor.rest_skip, List.length_drop] at hreach
    change _ ≤ source.toList.length - p at hreach
    rw [hcursor]
    omega

end MiniPL
