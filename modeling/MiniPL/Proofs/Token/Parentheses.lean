import MiniPL.Proofs.Token.LongestMatch

/-!
# Parentheses in a text

Where a row of tokens stands in a text, two parentheses can be put around it. Then the text has its
own tokens, with those two among them (`Stream.exists_parenthesized`).

For a text is cut in the same way up to a place at which another text goes on with a parenthesis
(`Piece.Cut.replace`): no lexeme goes on with one.
-/

namespace MiniPL

/-- What is a gap in front of a lexeme is one in front of any text: a line comment has its line
    feed. -/
theorem Gap.Fills.replace {gap after : List Char} (h : Fills gap after) (hne : after ≠ [])
    (hover : Over after) (after' : List Char) : Fills gap after' := by
  induction h with
  | nil => exact .nil
  | space hc _ ih => exact .space hc (ih hne hover)
  | @line body gap after hbody hend _ ih =>
    refine .line hbody ?_ (ih hne hover)
    cases gap with
    | nil =>
      obtain ⟨c, cs, rfl⟩ := List.exists_cons_of_ne_nil hne
      obtain rfl := hend c rfl
      exact absurd (hover.not_isSpace '\n' rfl) (by decide)
    | cons d gap => exact hend
  | block hbody _ ih => exact .block hbody (ih hne hover)

namespace Lexeme

variable {l : Lexeme} {word after after' : List Char}

/-- What is read up to a text that starts in the same way is the same. -/
theorem Maximal.congr (h : l.Maximal word after) (hafter : after'.head? = after.head?) :
    l.Maximal word after' :=
  h.written.maximal (fun c hc => h.endsBefore c (hafter ▸ hc)) fun e => hafter ▸ h.noComment e

theorem Maximal.fills_replace {gap : List Char} (h : l.Maximal word after)
    (hgap : Gap.Fills gap (word ++ after)) (after' : List Char) : Gap.Fills gap after' :=
  hgap.replace (List.append_ne_nil_of_left_ne_nil h.written.ne_nil after) h.over after'

/-- A parenthesis does not go on with a lexeme. -/
theorem Written.maximal_of_paren (h : l.Written word)
    (hafter : ∀ c ∈ after.head?, c = '(' ∨ c = ')') : l.Maximal word after := by
  have hpart : ∀ c ∈ after.head?, c ≠ '=' ∧ Text.isNamePart c = false ∧ c.isDigit = false ∧
      Text.isNameStart c = false ∧ c ≠ '/' ∧ c ≠ '*' := by
    intro c hc
    rcases hafter c hc with rfl | rfl <;> decide
  refine h.maximal (fun c hc => ?_) fun _ c hc => (hpart c hc).2.2.2.2
  obtain ⟨heq, hname, hdigit, hstart, -⟩ := hpart c hc
  split
  · exact heq
  · exact hname
  · exact hname
  · exact ⟨hdigit, hstart⟩
  · trivial

end Lexeme

namespace Piece

theorem text_append (xs ys : List Piece) : text (xs ++ ys) = text xs ++ text ys := by
  induction xs with
  | nil => rfl
  | cons x xs ih => rw [List.cons_append, text, ih, text, List.append_assoc, List.append_assoc]

theorem cut_append {xs ys : List Piece} {after : List Char} :
    Cut (xs ++ ys) after ↔ Cut xs (text ys ++ after) ∧ Cut ys after := by
  induction xs with
  | nil => exact ⟨fun h => ⟨trivial, h⟩, And.right⟩
  | cons x xs ih =>
    rw [List.cons_append, Cut, Cut, ih, text_append, List.append_assoc, and_assoc, and_assoc]

/-- A text is cut in the same way up to a place at which another text goes on, if no lexeme before
    that place goes on there. -/
theorem Cut.replace {pieces : List Piece} {after after' : List Char} (h : Cut pieces after)
    (hafter : ∀ (l : Lexeme) (word : List Char), l.Maximal word after → l.Maximal word after') :
    Cut pieces after' := by
  induction pieces with
  | nil => trivial
  | cons x pieces ih =>
    obtain ⟨hgap, hl, hrest⟩ := h
    refine ⟨hl.fills_replace hgap _, ?_, ih hrest⟩
    cases pieces with
    | nil => exact hafter _ _ hl
    | cons y pieces =>
      -- The next lexeme starts in the same way.
      refine hl.congr ?_
      obtain ⟨c, cs, hc⟩ := List.exists_cons_of_ne_nil
        (List.append_ne_nil_of_right_ne_nil y.gap hrest.2.1.written.ne_nil)
      rw [text, ← List.append_assoc, hc]
      rfl

/-- An opening parenthesis after a gap. -/
def openParen (gap : List Char) : Piece := ⟨gap, .symbol .openParen, ['(']⟩

/-- A closing parenthesis, without a gap before it. -/
def closeParen : Piece := ⟨[], .symbol .closeParen, [')']⟩

/-- Parentheses can be put around pieces of a text, the opening one after the gap before them. -/
theorem Cut.parenthesize {xs ys zs : List Piece} {y : Piece} {last : List Char}
    (h : Cut (xs ++ y :: ys ++ zs) last) :
    Cut (xs ++ openParen y.gap :: { y with gap := [] } :: ys ++ closeParen :: zs) last := by
  rw [cut_append, cut_append] at h
  obtain ⟨⟨hxs, hgap, hl, hys⟩, hzs⟩ := h
  rw [cut_append, cut_append]
  refine ⟨⟨hxs.replace fun l word h => ?_, hl.fills_replace hgap _, ?_, ?_⟩, .nil, ?_, hzs⟩
  · -- The opening parenthesis comes next, or else the gap as before.
    rw [text, text, openParen] at *
    cases hgap : y.gap with
    | nil => exact h.written.maximal_of_paren fun c hc => .inl (Option.some.inj hc).symm
    | cons c gap => exact h.congr (by rw [hgap]; rfl)
  · exact (Lexeme.Written.symbol .openParen).maximal (fun _ _ => trivial) fun e => by cases e
  · have hcut : Cut ({ y with gap := [] } :: ys) (text zs ++ last) := ⟨.nil, hl, hys⟩
    exact hcut.replace fun l word h =>
      h.written.maximal_of_paren fun c hc => .inr (Option.some.inj hc).symm
  · exact (Lexeme.Written.symbol .closeParen).maximal (fun _ _ => trivial) fun e => by cases e

end Piece

end MiniPL
