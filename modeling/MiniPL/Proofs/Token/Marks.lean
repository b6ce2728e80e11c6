import MiniPL.Diagnostic
import MiniPL.Proofs.Grammar.Names
import MiniPL.Proofs.Syntax.Relocation
import MiniPL.Proofs.Text.Pieces
import MiniPL.Proofs.Token.LongestMatch

/-!
# Where items stand

All items of a text stand in it, and so does the fault that it may end with: before a character
that is neither a space nor a tab, or at the end of the text (`Stream.marks_of_mem_positions`).
What such a position tells is its line, and how much of that stands before it (`Pos.Marks.split`).

Names are in one line (`Stream.inline_of_mem_names`).
-/

namespace MiniPL

open Diagnostic (isMargin)

/-- The position is that of a place in the text, with no space and no tab after it. -/
def Pos.Marks (p : Pos) (text : List Char) : Prop :=
  ∃ before after, text = before ++ after ∧ p = Pos.start.advance before ∧
    ∀ c ∈ after.head?, isMargin c = false

/-- A position in a text is in a line of it. As many characters of the line stand before it as its
    column tells, and no space and no tab is next. -/
theorem Pos.Marks.split {p : Pos} {source : String} (h : p.Marks source.toList) :
    ∃ line first, Diagnostic.line? source p.line = some (line ++ first) ∧
      p.column = line.length + 1 ∧ ∀ c ∈ first.head?, isMargin c = false := by
  obtain ⟨before, after, hsource, hp, hafter⟩ := h
  obtain ⟨front, line, hpos, hpieces⟩ := Text.exists_pieces_append before
  obtain ⟨first, rest, hfirst, hprefix⟩ := Text.exists_pieces after
  rw [hpos] at hp
  refine ⟨line, first, ?_, by rw [hp], fun c hc => ?_⟩
  · have hline : ¬ p.line < 1 := by
      rw [hp]
      dsimp only
      omega
    have hindex : (p.line - 1).toNat = front.length := by
      rw [hp]
      dsimp only
      omega
    rw [Diagnostic.line?, if_neg hline, hindex, hsource, hpieces after first rest hfirst,
      List.getElem?_append_right (Nat.le_refl _), Nat.sub_self, List.getElem?_cons_zero]
  · obtain ⟨tail, rfl⟩ := hprefix
    refine hafter c ?_
    rw [List.head?_append, Option.mem_def.1 hc, Option.some_or]
    exact Option.mem_some_self c

/-! ## Tokens -/

theorem Gap.Over.isMargin {text : List Char} (h : Over text) :
    ∀ c ∈ text.head?, Diagnostic.isMargin c = false := by
  intro c hc
  have hspace := h.not_isSpace c hc
  rw [isSpace, Bool.or_eq_false_iff] at hspace
  exact hspace.1

/-- What cannot be completed is found before a character that is no space. -/
theorem Lexeme.Incomplete.isMargin {text : List Char} {f : LexicalFault} {offset : Nat}
    (h : Incomplete text f offset) :
    ∀ c ∈ (text.drop offset).head?, Diagnostic.isMargin c = false := by
  rcases h.over_or_unclosed with hover | ⟨⟨body, rfl, -⟩, rfl, rfl⟩
  · cases h with
    | @escape body content after _ _ =>
      rw [List.drop_succ_cons, List.drop_left]
      rintro c ⟨⟩
      decide
    | _ => exact hover.isMargin
  · rintro c ⟨⟩
    decide

namespace Piece

/-- The tokens of pieces stand at their first characters. -/
theorem marks_of_mem_tokens {pieces : List Piece} {after : List Char} (h : Cut pieces after)
    (before : List Char) {t : Token} (ht : t ∈ tokens (Pos.start.advance before) pieces) :
    t.pos.Marks (before ++ (text pieces ++ after)) := by
  induction pieces generalizing before with
  | nil => cases ht
  | cons x rest ih =>
    obtain ⟨-, hl, hrest⟩ := h
    have htext : before ++ (text (x :: rest) ++ after) =
        before ++ x.gap ++ (x.word ++ (text rest ++ after)) := by
      simp [text]
    rw [htext]
    rcases List.mem_cons.1 ht with rfl | ht
    · exact ⟨before ++ x.gap, _, rfl, (Pos.advance_append ..).symm, hl.over.isMargin⟩
    · rw [← Pos.advance_append] at ht
      simpa using ih hrest (before ++ (x.gap ++ x.word)) ht

/-- A name is a word, which has no line feed. -/
theorem inline_of_mem_names {pieces : List Piece} {after : List Char} (h : Cut pieces after)
    (p : Pos) : ∀ x ∈ Token.names (tokens p pieces), Text.Inline x := by
  induction pieces generalizing p with
  | nil => nofun
  | cons x rest ih =>
    obtain ⟨gap, lexeme, word⟩ := x
    obtain ⟨-, ⟨hw, -⟩, hrest⟩ := h
    have hname : ∀ x, lexeme.name? = some x → Text.Inline x := by
      intro x hx
      cases (show lexeme.Written word from hw) with
      | name hword _ =>
        cases hx
        refine ⟨fun hmem => ?_⟩
        rw [String.toList_ofList] at hmem
        exact absurd (hword.part _ hmem) (by decide)
      | _ => cases hx
    intro y hy
    obtain ⟨t, ht, hy⟩ := List.mem_filterMap.1 hy
    rcases List.mem_cons.1 ht with rfl | ht
    · exact hname y hy
    · exact ih hrest _ y (List.mem_filterMap.2 ⟨t, ht, hy⟩)

end Piece

/-! ## Streams -/

namespace Stream

variable {source : String}

/-- All positions of a stream are in its text, with no space and no tab after them. -/
theorem marks_of_mem_positions (hne : source ≠ "") {p : Pos}
    (hp : p ∈ (ofSource source).positions) : p.Marks source.toList := by
  obtain ⟨pieces, after, heq, hcut, htokens, hending⟩ := exists_cut hne
  rcases List.mem_append.1 hp with hp | hp
  · obtain ⟨t, ht, rfl⟩ := List.mem_map.1 hp
    rw [htokens] at ht
    rw [heq]
    exact Piece.marks_of_mem_tokens hcut [] ht
  · obtain rfl := List.mem_singleton.1 hp
    rcases hending with ⟨-, hend⟩ | ⟨gap, bad, f, offset, rfl, hbad, hend⟩
    · rw [hend]
      exact ⟨source.toList, [], (List.append_nil _).symm, rfl, nofun⟩
    · rw [hend, heq]
      refine ⟨_, bad.drop offset, ?_, rfl, hbad.isMargin⟩
      simp only [List.append_assoc, List.take_append_drop]

/-- The names in a text are in one line. -/
theorem inline_of_mem_names : ∀ x ∈ Token.names (ofSource source).tokens, Text.Inline x := by
  by_cases hne : source = ""
  · subst hne
    exact nofun
  · obtain ⟨pieces, after, -, hcut, htokens, -⟩ := exists_cut hne
    rw [htokens]
    exact Piece.inline_of_mem_names hcut .start

end Stream

end MiniPL
