import Mathlib.Data.List.Induction
import MiniPL.Position
import MiniPL.Text.Lines

/-!
# Lines, and positions in them

The lines of a text, as positions count them, are what stands between its line feeds
(`Text.pieces`). The position after the start of a text tells how many lines end there, and how
many characters stand in the line that goes on (`Text.exists_pieces_append`).

A text without line feeds is in one line (`Text.Inline`).
-/

namespace MiniPL

namespace Text

variable {cs first : List Char} {rest : List (List Char)}

theorem pieces_newline (cs : List Char) : pieces ('\n' :: cs) = [] :: pieces cs := rfl

theorem pieces_cons {c : Char} (hc : c ≠ '\n') (h : pieces cs = first :: rest) :
    pieces (c :: cs) = (c :: first) :: rest := by
  unfold pieces at h ⊢
  simp only [List.foldr_cons, if_neg hc, h]

/-- There is a first line, with which the text starts. -/
theorem exists_pieces (cs : List Char) :
    ∃ first rest, pieces cs = first :: rest ∧ first <+: cs := by
  induction cs with
  | nil => exact ⟨[], [], rfl, List.prefix_rfl⟩
  | cons c cs ih =>
    obtain ⟨first, rest, h, hfirst⟩ := ih
    by_cases hc : c = '\n'
    · exact ⟨[], pieces cs, by rw [hc, pieces_newline], List.nil_prefix⟩
    · exact ⟨c :: first, rest, pieces_cons hc h, (List.prefix_cons_inj c).2 hfirst⟩

/-- Two texts with a line feed between them have the lines of both. -/
theorem pieces_append_newline (a b : List Char) :
    pieces (a ++ '\n' :: b) = pieces a ++ pieces b := by
  induction a with
  | nil => rfl
  | cons c a ih =>
    by_cases hc : c = '\n'
    · rw [hc, List.cons_append, pieces_newline, pieces_newline, ih, List.cons_append]
    · obtain ⟨first, rest, h, -⟩ := exists_pieces a
      rw [h, List.cons_append] at ih
      rw [List.cons_append, pieces_cons hc ih, pieces_cons hc h, List.cons_append]

/-- A text without line feeds is a line. -/
theorem pieces_of_not_mem (h : '\n' ∉ cs) : pieces cs = [cs] := by
  induction cs with
  | nil => rfl
  | cons c cs ih =>
    rw [List.mem_cons, not_or] at h
    exact pieces_cons (Ne.symm h.1) (ih h.2)

theorem not_mem_of_mem_pieces {line : List Char} (h : line ∈ pieces cs) : '\n' ∉ line := by
  induction cs generalizing line with
  | nil =>
    obtain rfl := List.mem_singleton.1 h
    exact List.not_mem_nil
  | cons c cs ih =>
    by_cases hc : c = '\n'
    · rw [hc, pieces_newline] at h
      rcases List.mem_cons.1 h with rfl | h
      · exact List.not_mem_nil
      · exact ih h
    · obtain ⟨first, rest, hcs, -⟩ := exists_pieces cs
      rw [pieces_cons hc hcs] at h
      rcases List.mem_cons.1 h with rfl | h
      · rw [List.mem_cons, not_or]
        exact ⟨Ne.symm hc, ih (hcs ▸ List.mem_cons_self)⟩
      · exact ih (hcs ▸ List.mem_cons_of_mem _ h)

/-- After the start of a text, the position is in the line after those that end there, and as many
    characters of the line stand before it as the column tells. -/
theorem exists_pieces_append (before : List Char) :
    ∃ (front : List (List Char)) (line : List Char),
      Pos.start.advance before = ⟨front.length + 1, line.length + 1⟩ ∧
      ∀ after first rest, pieces after = first :: rest →
        pieces (before ++ after) = front ++ (line ++ first) :: rest := by
  -- By induction from the end of the start: one more character is before or after the position.
  induction before using List.reverseRecOn with
  | nil => exact ⟨[], [], rfl, fun _ _ _ h => h⟩
  | append_singleton before c ih =>
    obtain ⟨front, line, hpos, hpieces⟩ := ih
    rw [Pos.advance_append, hpos, Pos.advance_cons, Pos.advance_nil]
    by_cases hc : c = '\n'
    · subst hc
      refine ⟨front ++ [line], [], by simp [Pos.after], fun after first rest h => ?_⟩
      have hline := hpieces ('\n' :: after) [] (first :: rest) (by rw [pieces_newline, h])
      rw [List.append_assoc, List.singleton_append, hline]
      simp
    · refine ⟨front, line ++ [c], by simp [Pos.after, hc], fun after first rest h => ?_⟩
      have hline := hpieces (c :: after) (c :: first) rest (pieces_cons hc h)
      rw [List.append_assoc, List.singleton_append, hline]
      simp

/-! ## Texts in one line -/

/-- Whether a text has no line feed. -/
structure Inline (s : String) : Prop where
  not_mem : '\n' ∉ s.toList

instance (s : String) : Decidable (Inline s) := decidable_of_iff ('\n' ∉ s.toList) ⟨.mk, (·.1)⟩

@[simp] theorem inline_append {s t : String} : Inline (s ++ t) ↔ Inline s ∧ Inline t := by
  constructor
  · rintro ⟨h⟩
    rw [String.toList_append, List.mem_append, not_or] at h
    exact ⟨⟨h.1⟩, ⟨h.2⟩⟩
  · rintro ⟨⟨hs⟩, ⟨ht⟩⟩
    exact ⟨by rw [String.toList_append, List.mem_append, not_or]; exact ⟨hs, ht⟩⟩

/-- The text of a number is in one line. -/
@[simp] theorem inline_int (n : Int) : Inline (toString n) := by
  have hnat (n : Nat) : Inline n.repr := by
    refine ⟨fun h => ?_⟩
    rw [Nat.repr_eq_ofList_toDigits, String.toList_ofList] at h
    exact absurd (Nat.isDigit_of_mem_toDigits (by decide) (by decide) h) (by decide)
  change Inline n.repr
  rw [Int.repr_eq_if]
  split
  · exact hnat _
  · exact inline_append.2 ⟨by decide, hnat _⟩

theorem inline_intercalate {separator : String} (h : Inline separator) :
    (ss : List String) → (∀ s ∈ ss, Inline s) → Inline (separator.intercalate ss)
  | [], _ => (by decide : Inline "")
  | [s], hs => by
    rw [String.intercalate_singleton]
    exact hs s List.mem_cons_self
  | s :: t :: ss, hs => by
    obtain ⟨hs, hrest⟩ := List.forall_mem_cons.1 hs
    rw [String.intercalate_cons_cons, inline_append, inline_append]
    exact ⟨⟨hs, h⟩, inline_intercalate h (t :: ss) hrest⟩

end Text

end MiniPL
