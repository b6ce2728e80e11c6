import MiniPL.Token.Gap

/-!
# Gaps and what follows them

A gap is made of spaces, line comments and block comments (`Gap.Fills`). What is a gap
depends on the text after it, as a line comment only ends at a line feed or with the text.

* `Gap.measure_append`: a gap is skipped, whatever comes after it;
* `Gap.Over`, `Gap.Unclosed`: the texts in front of which skipping stops;
* `Gap.exists_fills`: every text starts with a gap that one of these follows;
* `Gap.Fills.eq_of_over`: there is only one such gap.
-/

namespace MiniPL.Gap

/-- The text `gap` is a gap if `after` comes after it: a row of spaces, of line comments,
    which run up to the next line feed or to the end of the text, and of block comments,
    which run up to the first `*/`. -/
inductive Fills : (gap after : List Char) → Prop
  | nil {after : List Char} : Fills [] after
  | space {c : Char} {gap after : List Char} :
    isSpace c → Fills gap after → Fills (c :: gap) after
  | line {body gap after : List Char} :
    '\n' ∉ body → (∀ c ∈ (gap ++ after).head?, c = '\n') → Fills gap after →
      Fills ('/' :: '/' :: (body ++ gap)) after
  | block {body gap after : List Char} :
    ¬ ['*', '/'] <:+: body → Fills gap after →
      Fills ('/' :: '*' :: (body ++ '*' :: '/' :: gap)) after

/-- Whether a text starts with neither a space nor a comment. -/
structure Over (text : List Char) : Prop where
  not_isSpace : ∀ c ∈ text.head?, isSpace c = false
  not_line : ¬ ['/', '/'] <+: text
  not_block : ¬ ['/', '*'] <+: text

/-- Whether a text starts with a block comment that is not closed. -/
def Unclosed (text : List Char) : Prop :=
  ∃ body, text = '/' :: '*' :: body ∧ ¬ ['*', '/'] <:+: body

/-- Spaces and comments start with certain characters only. -/
theorem over_cons {c : Char} {cs : List Char} (hspace : isSpace c = false) (hslash : c ≠ '/') :
    Over (c :: cs) where
  not_isSpace d hd := by
    obtain rfl : c = d := by simpa using hd
    exact hspace
  not_line hp := by
    obtain ⟨rest, hrest⟩ := hp
    exact hslash (List.cons.inj hrest).1.symm
  not_block hp := by
    obtain ⟨rest, hrest⟩ := hp
    exact hslash (List.cons.inj hrest).1.symm

/-! ## Runs of characters -/

section Runs

variable {p : Char → Bool} {run rest : List Char}

theorem takeWhile_append_eq (hrun : ∀ c ∈ run, p c) (hrest : ∀ c ∈ rest.head?, p c = false) :
    (run ++ rest).takeWhile p = run := by
  cases rest with
  | nil => rw [List.takeWhile_append_of_pos hrun, List.takeWhile_nil, List.append_nil]
  | cons c rest =>
    rw [List.takeWhile_append_of_pos hrun, List.takeWhile_cons, hrest c rfl, if_neg (by decide),
      List.append_nil]

theorem dropWhile_append_eq (hrun : ∀ c ∈ run, p c) (hrest : ∀ c ∈ rest.head?, p c = false) :
    (run ++ rest).dropWhile p = rest := by
  cases rest with
  | nil => rw [List.dropWhile_append_of_pos hrun, List.dropWhile_nil]
  | cons c rest =>
    rw [List.dropWhile_append_of_pos hrun, List.dropWhile_cons, hrest c rfl, if_neg (by decide)]

end Runs

/-! ## The end of a block comment -/

theorem isPrefix_pair_iff {a b c : Char} {cs : List Char} :
    [a, b] <+: c :: cs ↔ c = a ∧ cs.head? = some b := by
  cases cs <;> simp [eq_comm]

theorem commentEnd_append {body : List Char} (h : ¬ ['*', '/'] <:+: body) (n : Nat)
    (rest : List Char) :
    commentEnd n (body ++ '*' :: '/' :: rest) = some (n + body.length + 2) := by
  induction body generalizing n with
  | nil => simp [commentEnd]
  | cons c body ih =>
    rw [List.infix_cons_iff, not_or, isPrefix_pair_iff] at h
    -- The first `*/` is not here: not in the body, and not with half of it in the body.
    have hc : ¬ (c = '*' ∧ (body ++ '*' :: '/' :: rest).head? = some '/') := by
      rintro ⟨rfl, hb⟩
      cases body with
      | nil => simp at hb
      | cons d body => exact h.1 ⟨rfl, hb⟩
    rw [List.cons_append, commentEnd, if_neg hc, ih h.2, List.length_cons]
    simp only [Option.some.injEq]
    omega

theorem commentEnd_eq_none {body : List Char} (h : ¬ ['*', '/'] <:+: body) (n : Nat) :
    commentEnd n body = none := by
  induction body generalizing n with
  | nil => rfl
  | cons c body ih =>
    rw [List.infix_cons_iff, not_or, isPrefix_pair_iff] at h
    rw [commentEnd, if_neg h.1, ih h.2]

/-- A text has a first `*/`, or none at all. -/
theorem exists_first_end (text : List Char) :
    ¬ ['*', '/'] <:+: text ∨
      ∃ body rest, text = body ++ '*' :: '/' :: rest ∧ ¬ ['*', '/'] <:+: body := by
  induction text with
  | nil => exact .inl (by simp)
  | cons c text ih =>
    by_cases hc : ['*', '/'] <+: c :: text
    · obtain ⟨rest, hrest⟩ := hc
      exact .inr ⟨[], rest, hrest.symm, by simp⟩
    rcases ih with h | ⟨body, rest, rfl, h⟩
    · exact .inl (by simp only [List.infix_cons_iff, hc, h, or_self, not_false_iff])
    · refine .inr ⟨c :: body, rest, rfl, ?_⟩
      rw [List.infix_cons_iff, not_or]
      refine ⟨fun hp => hc (hp.trans ?_), h⟩
      rw [← List.cons_append]
      exact List.prefix_append _ _

/-! ## Skipping -/

/-- A gap is skipped. -/
theorem measure_append {gap after : List Char} (h : Fills gap after) (n : Nat) :
    measure n (gap ++ after) = measure (n + gap.length) after := by
  induction h generalizing n with
  | nil => rfl
  | space hc _ ih =>
    rw [List.cons_append, measure, if_pos hc, ih, List.length_cons]
    congr 1
    omega
  | @line body gap after hbody hend _ ih =>
    -- The comment takes its body, and stops at the line feed or at the end of the text.
    have hrun : ∀ c ∈ '/' :: body, (c != '\n') = true := by
      simp only [List.mem_cons, forall_eq_or_imp, bne_iff_ne]
      exact ⟨by decide, fun c hc e => hbody (e ▸ hc)⟩
    have hrest : ∀ c ∈ (gap ++ after).head?, (c != '\n') = false := fun c hc => by
      simp [hend c hc]
    rw [show '/' :: '/' :: (body ++ gap) ++ after = '/' :: ('/' :: body ++ (gap ++ after)) by simp,
      measure, if_neg (by decide), if_pos (by simp), takeWhile_append_eq hrun hrest,
      dropWhile_append_eq hrun hrest, ih]
    congr 1
    simp only [List.length_cons, List.length_append]
    omega
  | @block body gap after hbody _ ih =>
    rw [show '/' :: '*' :: (body ++ '*' :: '/' :: gap) ++ after =
        '/' :: ('*' :: (body ++ '*' :: '/' :: (gap ++ after))) by simp,
      measure, if_neg (by decide), if_neg (by simp), if_pos (by simp), List.tail_cons,
      commentEnd_append hbody]
    have hdrop : (body ++ '*' :: '/' :: (gap ++ after)).drop (0 + body.length + 2) =
        gap ++ after := by
      rw [show 0 + body.length + 2 = body.length + 2 by omega, List.drop_length_add_append]
      rfl
    dsimp only
    rw [hdrop, ih]
    congr 1
    simp only [List.length_cons, List.length_append]
    omega

theorem measure_of_over {text : List Char} (h : Over text) (n : Nat) :
    measure n text = closed n := by
  cases text with
  | nil => rw [measure]
  | cons c cs =>
    rw [measure, if_neg (by simp [h.not_isSpace c rfl]),
      if_neg (mt isPrefix_pair_iff.2 h.not_line), if_neg (mt isPrefix_pair_iff.2 h.not_block)]

theorem measure_of_unclosed {text : List Char} (h : Unclosed text) (n : Nat) :
    measure n text = unclosed n := by
  obtain ⟨body, rfl, hbody⟩ := h
  rw [measure, if_neg (by decide), if_neg (by simp), if_pos (by simp), List.tail_cons,
    commentEnd_eq_none hbody]

/-! ## All texts -/

/-- A line comment goes on up to where a gap may follow. -/
theorem Fills.lineComment {tail gap after : List Char} (h : Fills gap after)
    (heq : tail.dropWhile (· != '\n') = gap ++ after) :
    Fills ('/' :: '/' :: (tail.takeWhile (· != '\n') ++ gap)) after := by
  refine .line (fun hmem => ?_) (fun d hd => ?_) h
  · simpa using List.all_eq_true.1 (List.all_takeWhile (p := (· != '\n')) (l := tail)) _ hmem
  · have hstop := List.head?_dropWhile_not (· != '\n') tail
    rw [heq, Option.mem_def.1 hd] at hstop
    simpa using hstop

/-- Every text starts with a gap, after which there is neither a space nor a closed comment. -/
theorem exists_fills (text : List Char) :
    ∃ gap after, text = gap ++ after ∧ Fills gap after ∧ (Over after ∨ Unclosed after) := by
  by_cases hover : Over text
  · exact ⟨[], text, rfl, .nil, .inl hover⟩
  cases text with
  | nil => exact absurd ⟨nofun, by simp, by simp⟩ hover
  | cons c cs =>
    by_cases hspace : isSpace c
    · obtain ⟨gap, after, h, hgap, hafter⟩ := exists_fills cs
      exact ⟨c :: gap, after, by rw [h, List.cons_append], .space hspace hgap, hafter⟩
    by_cases hline : ['/', '/'] <+: c :: cs
    · obtain ⟨tail, htail⟩ := hline
      have hlt : (tail.dropWhile (· != '\n')).length < (c :: cs).length := by
        rw [← htail]
        exact Nat.lt_add_right 1 (Nat.lt_succ_of_le (List.dropWhile_sublist _).length_le)
      obtain ⟨gap, after, h, hgap, hafter⟩ := exists_fills (tail.dropWhile (· != '\n'))
      refine ⟨_, after, ?_, hgap.lineComment h, hafter⟩
      simp only [← htail, List.cons_append, List.nil_append, List.append_assoc, ← h,
        List.takeWhile_append_dropWhile]
    by_cases hblock : ['/', '*'] <+: c :: cs
    · obtain ⟨tail, htail⟩ := hblock
      rcases exists_first_end tail with hnone | ⟨body, rest, rfl, hbody⟩
      · exact ⟨[], _, rfl, .nil, .inr ⟨tail, htail.symm, hnone⟩⟩
      · have hlt : rest.length < (c :: cs).length := by
          rw [← htail]
          simp only [List.length_append, List.length_cons]
          omega
        obtain ⟨gap, after, h, hgap, hafter⟩ := exists_fills rest
        refine ⟨'/' :: '*' :: (body ++ '*' :: '/' :: gap), after, ?_, .block hbody hgap, hafter⟩
        simp [← htail, h]
    · refine absurd ⟨fun d hd => ?_, hline, hblock⟩ hover
      obtain rfl : c = d := by simpa using hd
      simpa using hspace
termination_by text.length
decreasing_by
  · exact Nat.lt_add_one cs.length
  · exact hlt
  · exact hlt

/-- There is only one gap up to a text that starts with neither a space nor a comment. -/
theorem Fills.eq_of_over {gap after gap' after' : List Char} (h : Fills gap after)
    (hafter : Over after) (h' : Fills gap' after') (hafter' : Over after')
    (heq : gap ++ after = gap' ++ after') : gap = gap' ∧ after = after' := by
  have hm := measure_append h 0
  rw [heq, measure_append h', measure_of_over hafter, measure_of_over hafter', closed.injEq] at hm
  exact List.append_inj heq (by omega)

end MiniPL.Gap
