import MiniPL.ProgramFile

/-!
# Line ends of files

A file may end its lines in three ways, and the text that is read has line feeds for all of them
(`LineEnd`, `Text.unifyLineEnds_write`). But then it is cut into lines, and joined again with line
feeds, which puts them in the place of other characters, too (`Text.isFileSeparator`):

* `Text.toList_unlines_splitLines`: cutting and joining puts line feeds for all that ends a line,
  and drops one at the end of the text;
* `Text.toList_unlines_fileLines`: what comes of a text that does not end with a line end;
* `Text.unifySeparators_eq_self_iff`: that is the text itself if and only if it has no separator.
-/

namespace MiniPL

/-- How a text may end its lines. -/
inductive LineEnd
  | lf
  | crlf
  | cr
  deriving DecidableEq, Repr

/-- What stands at the end of a line. -/
def LineEnd.chars : LineEnd → List Char
  | lf => ['\n']
  | crlf => ['\r', '\n']
  | cr => ['\r']

namespace Text

/-- The text with its lines ended in the given way. -/
def writeLineEnds (e : LineEnd) (cs : List Char) : List Char :=
  cs.flatMap fun c => if c = '\n' then e.chars else [c]

/-- Whether the character ends a line of a file, but no line of a program. -/
def isFileSeparator (c : Char) : Bool := isFileLineEnd c && c != '\n'

/-- The text with line feeds for its separators. -/
def unifySeparators (cs : List Char) : List Char :=
  cs.map fun c => if isFileSeparator c then '\n' else c

/-- The text without the line feed that it may end with. -/
def dropLineFeed (cs : List Char) : List Char :=
  if cs.getLast? = some '\n' then cs.dropLast else cs

theorem unifySeparators_eq_self_iff {cs : List Char} :
    unifySeparators cs = cs ↔ ∀ c ∈ cs, isFileSeparator c = false := by
  induction cs with
  | nil => simp [unifySeparators]
  | cons c cs ih =>
    rw [unifySeparators, List.map_cons, List.cons.injEq, List.forall_mem_cons]
    refine and_congr ?_ ih
    cases hc : isFileSeparator c with
    | false => simp
    | true =>
      suffices c ≠ '\n' by simpa using this.symm
      rintro rfl
      cases hc

theorem unifySeparators_eq_map (cs : List Char) :
    unifySeparators cs = cs.map fun c => if isFileLineEnd c then '\n' else c := by
  refine List.map_congr_left fun c _ => ?_
  by_cases hc : c = '\n'
  · subst hc
    rfl
  · have hne : (c != '\n') = true := by simpa using hc
    rw [isFileSeparator, hne, Bool.and_true]

/-! ## Unified line ends -/

section

variable {cs : List Char}

theorem unifyLineEnds_cons {c : Char} (hc : c ≠ '\r') (cs : List Char) :
    unifyLineEnds (c :: cs) = c :: unifyLineEnds cs := by
  rw [unifyLineEnds, if_neg hc]
  exact fun _ h => absurd h hc

theorem unifyLineEnds_return (h : cs.head? ≠ some '\n') :
    unifyLineEnds ('\r' :: cs) = '\n' :: unifyLineEnds cs := by
  rw [unifyLineEnds, if_pos rfl]
  rintro cs' - rfl
  exact h rfl

/-- If carriage returns end the lines, there are no line feeds. -/
theorem head?_writeLineEnds_cr (cs : List Char) :
    (writeLineEnds .cr cs).head? ≠ some '\n' := by
  cases cs with
  | nil => exact nofun
  | cons c cs =>
    rw [writeLineEnds, List.flatMap_cons]
    by_cases hc : c = '\n'
    · rw [if_pos hc]
      simp [LineEnd.chars]
    · rw [if_neg hc]
      simpa using hc

/-- A text without carriage returns reads the same whichever way its lines are ended. -/
theorem unifyLineEnds_write (e : LineEnd) (h : '\r' ∉ cs) :
    unifyLineEnds (writeLineEnds e cs) = cs := by
  induction cs with
  | nil => rfl
  | cons c cs ih =>
    rw [List.mem_cons, not_or] at h
    have hrest := ih h.2
    rw [writeLineEnds, List.flatMap_cons, ← writeLineEnds]
    by_cases hc : c = '\n'
    · subst hc
      rw [if_pos rfl]
      cases e with
      | lf => exact (unifyLineEnds_cons (by decide) _).trans (congrArg _ hrest)
      | crlf => exact congrArg _ hrest
      | cr => exact (unifyLineEnds_return (head?_writeLineEnds_cr cs)).trans (congrArg _ hrest)
    · rw [if_neg hc]
      exact (unifyLineEnds_cons (Ne.symm h.1) _).trans (congrArg _ hrest)

/-- What holds of line feeds holds of the characters of a text if it holds of the others. -/
theorem forall_mem_unifyLineEnds {p : Char → Prop} (hreturn : p '\r') (hline : p '\n') :
    (∀ c ∈ unifyLineEnds cs, p c) ↔ ∀ c ∈ cs, p c := by
  fun_induction unifyLineEnds cs with
  | case1 => exact Iff.rfl
  | case2 cs ih => simp [ih, hreturn, hline]
  | case3 c cs _ ih =>
    by_cases hc : c = '\r'
    · simp [ih, hc, hreturn, hline]
    · simp [ih, hc]

/-- The last character stays if it is no line end. -/
theorem getLast?_unifyLineEnds (h : ∀ c ∈ cs.getLast?, c ≠ '\r' ∧ c ≠ '\n') :
    (unifyLineEnds cs).getLast? = cs.getLast? := by
  fun_induction unifyLineEnds cs with
  | case1 => rfl
  | case2 cs ih =>
    cases hlast : cs.getLast? with
    | none => simp [List.getLast?_cons, hlast] at h
    | some d =>
      rw [List.getLast?_cons, ih (by simpa [List.getLast?_cons, hlast] using h)]
      simp [List.getLast?_cons, hlast]
  | case3 c cs _ ih =>
    cases hlast : cs.getLast? with
    | none =>
      obtain rfl := List.getLast?_eq_none_iff.1 hlast
      simp [unifyLineEnds, (h c rfl).1]
    | some d =>
      rw [List.getLast?_cons, ih (by simpa [List.getLast?_cons, hlast] using h)]
      simp [List.getLast?_cons, hlast]

end

/-! ## Lines, joined -/

@[simp] theorem dropLineFeed_cons_cons (c d : Char) (cs : List Char) :
    dropLineFeed (c :: d :: cs) = c :: dropLineFeed (d :: cs) := by
  rw [dropLineFeed, dropLineFeed, List.getLast?_cons_cons]
  split <;> rfl

theorem dropLineFeed_of_forall {cs : List Char} (h : ∀ c ∈ cs.getLast?, c ≠ '\n') :
    dropLineFeed cs = cs :=
  if_neg fun hlast => h _ hlast rfl

theorem toList_unlines_cons (line : List Char) {lines : List (List Char)} (h : lines ≠ []) :
    (unlines ((line :: lines).map .ofList)).toList =
      line ++ '\n' :: (unlines (lines.map .ofList)).toList := by
  obtain ⟨next, rest, rfl⟩ := List.exists_cons_of_ne_nil h
  rw [unlines, List.map_cons, List.map_cons, String.intercalate_cons_cons]
  simp [unlines]

theorem toList_unlines_cons_cons (c : Char) (line : List Char) (lines : List (List Char)) :
    (unlines (((c :: line) :: lines).map .ofList)).toList =
      c :: (unlines ((line :: lines).map .ofList)).toList := by
  by_cases h : lines = []
  · simp [h, unlines]
  · rw [toList_unlines_cons _ h, toList_unlines_cons _ h, List.cons_append]

variable {isEnd : Char → Bool}

/-- Every other character goes on with its line. -/
theorem splitLines_cons_of_not_isEnd {c : Char} (hc : isEnd c = false) (cs : List Char) :
    splitLines isEnd [c] = [[c]] ∧ ∀ line lines, splitLines isEnd cs = line :: lines →
      splitLines isEnd (c :: cs) = (c :: line) :: lines := by
  refine ⟨by simp [splitLines, hc], fun line lines h => ?_⟩
  rw [splitLines] at h ⊢
  simp only [List.foldr_cons, hc, h, Bool.false_eq_true, if_false]

theorem splitLines_cons_ne_nil (c : Char) (cs : List Char) : splitLines isEnd (c :: cs) ≠ [] := by
  rw [splitLines, List.foldr_cons]
  split
  · exact List.cons_ne_nil _ _
  · split <;> exact List.cons_ne_nil _ _

/-- The lines of a text, joined, are the text with line feeds for all that ends its lines, without
    the one at its end. -/
theorem toList_unlines_splitLines (hline : isEnd '\n') (cs : List Char) :
    (unlines ((splitLines isEnd cs).map .ofList)).toList =
      dropLineFeed (cs.map fun c => if isEnd c then '\n' else c) := by
  induction cs with
  | nil => rfl
  | cons c cs ih =>
    cases hc : isEnd c with
    | true =>
      have hmap : (c :: cs).map (fun c => if isEnd c then '\n' else c) =
          '\n' :: cs.map (fun c => if isEnd c then '\n' else c) := by simp [hc]
      rw [splitLines_cons_of_isEnd isEnd hc, hmap]
      cases cs with
      | nil => rfl
      | cons d cs =>
        rw [toList_unlines_cons [] (splitLines_cons_ne_nil d cs), ih, List.map_cons,
          dropLineFeed_cons_cons, List.nil_append]
    | false =>
      have hne : c ≠ '\n' := by
        rintro rfl
        rw [hline] at hc
        cases hc
      have hmap : (c :: cs).map (fun c => if isEnd c then '\n' else c) =
          c :: cs.map (fun c => if isEnd c then '\n' else c) := by simp [hc]
      rw [hmap]
      cases cs with
      | nil =>
        rw [(splitLines_cons_of_not_isEnd hc []).1, dropLineFeed_of_forall (by simpa using hne)]
        simp [unlines]
      | cons d cs =>
        have hne' : splitLines isEnd (d :: cs) ≠ [] := splitLines_cons_ne_nil d cs
        obtain ⟨line, lines, h⟩ := List.exists_cons_of_ne_nil hne'
        rw [(splitLines_cons_of_not_isEnd hc _).2 line lines h, toList_unlines_cons_cons, ← h, ih,
          List.map_cons, dropLineFeed_cons_cons]

/-- What is read of a file: line feeds stand for all line ends, and there is none at the end. -/
theorem toList_unlines_fileLines (s : String) :
    (unlines (fileLines s)).toList = dropLineFeed (unifySeparators (unifyLineEnds s.toList)) := by
  rw [fileLines, toList_unlines_splitLines (by decide), unifySeparators_eq_map]

end Text

end MiniPL
