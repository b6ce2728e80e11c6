import MiniPL.Proofs.Command.Agreement
import MiniPL.Proofs.Text.LineEnds

/-!
# Programs in files

A command on a file does what it does on the text that is read of the file. This is the text that
the file holds, with its line ends unified, as long as there are no characters that end lines of
files only; in the place of such a character a line feed is read, even in a text literal or in a
comment (`FileCommand.perform_toUTF8`, `fileText_of_line_separator`).
-/

namespace MiniPL

theorem fileText_toUTF8 (path t : String) : fileText path (some t.toUTF8) =
    ⟨[.loaded path (Text.fileLines t).length], .ok (Text.unlines (Text.fileLines t))⟩ := by
  simp only [fileText, Text.decode_toUTF8]

namespace Text

variable {t : String}

/-- What is read of a text that does not end with a line end. -/
theorem unlines_fileLines (h : ∀ c ∈ t.toList.getLast?, c ≠ '\r' ∧ isFileLineEnd c = false) :
    unlines (fileLines t) = .ofList (unifySeparators (unifyLineEnds t.toList)) := by
  have hlast (c : Char) (hc : c ∈ t.toList.getLast?) : c ≠ '\r' ∧ c ≠ '\n' := by
    refine ⟨(h c hc).1, ?_⟩
    rintro rfl
    exact absurd (h _ hc).2 (by decide)
  rw [← String.toList_inj, toList_unlines_fileLines, String.toList_ofList]
  refine dropLineFeed_of_forall fun c hc => ?_
  rw [unifySeparators, List.getLast?_map, getLast?_unifyLineEnds hlast] at hc
  obtain ⟨d, hd, rfl⟩ := Option.map_eq_some_iff.1 hc
  rw [isFileSeparator, (h d hd).2, Bool.false_and, if_neg (by decide)]
  exact (hlast d hd).2

/-- Only separators are lost in a file. -/
theorem unifySeparators_unifyLineEnds_eq_iff {cs : List Char} :
    unifySeparators (unifyLineEnds cs) = unifyLineEnds cs ↔
      ∀ c ∈ cs, isFileSeparator c = false :=
  unifySeparators_eq_self_iff.trans (forall_mem_unifyLineEnds (by decide) (by decide))

/-- A text is read back whichever way its lines are ended. -/
theorem unlines_fileLines_write (e : LineEnd) (hreturn : '\r' ∉ t.toList)
    (h : ∀ c ∈ t.toList, isFileSeparator c = false) (hlast : t.toList.getLast? ≠ some '\n') :
    unlines (fileLines (.ofList (writeLineEnds e t.toList))) = t := by
  rw [← String.toList_inj, toList_unlines_fileLines, String.toList_ofList,
    unifyLineEnds_write e hreturn, unifySeparators_eq_self_iff.2 h, dropLineFeed, if_neg hlast]

end Text

/-- If the text does not end with a line end, a command on a file with the text in it does the same
    as on the text with line feeds for its line ends and for its separators. That is the text with
    its line ends unified if and only if it has no separator; then it does not matter which line
    ends the file has. -/
theorem FileCommand.perform_toUTF8 {t : String}
    (h : ∀ c ∈ t.toList.getLast?, c ≠ '\r' ∧ Text.isFileLineEnd c = false) (path : String)
    (lines : List String) :
    let load := fileText path (some t.toUTF8)
    let unified := Text.unifyLineEnds t.toList
    let source := String.ofList (Text.unifySeparators unified)
    load.result = .ok source ∧
    (∀ c : FileCommand, c.perform path (some t.toUTF8) lines =
      (c.onSource source lines).after load.log) ∧
    (source = .ofList unified ↔ ∀ c ∈ t.toList, Text.isFileSeparator c = false) ∧
    ('\r' ∉ t.toList → (∀ c ∈ t.toList, Text.isFileSeparator c = false) → ∀ e : LineEnd,
      (fileText path (some (String.ofList (Text.writeLineEnds e t.toList)).toUTF8)).result =
        .ok t) := by
  intro load unified source
  have hload : load.result = .ok source := by
    rw [show load = _ from fileText_toUTF8 path t, Text.unlines_fileLines h]
  refine ⟨hload, fun c => ?_, ?_, fun hreturn hsep e => ?_⟩
  · rw [perform, hload]
    cases c <;> rfl
  · rw [String.ofList_inj]
    exact Text.unifySeparators_unifyLineEnds_eq_iff
  · have hlast : t.toList.getLast? ≠ some '\n' := fun hc => absurd (h _ hc).2 (by decide)
    rw [fileText_toUTF8, Text.unlines_fileLines_write e hreturn hsep hlast]

/-- A file with two kinds of line ends. -/
theorem FileCommand.perform_toUTF8_of_two_line_ends :
    let t := "print \"a\";\r\nprint 1\r;"
    (∀ c ∈ t.toList.getLast?, c ≠ '\r' ∧ Text.isFileLineEnd c = false) ∧
      (∀ c ∈ t.toList, Text.isFileSeparator c = false) ∧
      FileCommand.run.perform "a.mpl" (some t.toUTF8) [] =
        (runFile "print \"a\";\nprint 1\n;" []).after [.loaded "a.mpl" 3] := by
  intro t
  have hsemicolon : t.toList.getLast? = some ';' := by decide +kernel
  have hlast : ∀ c ∈ t.toList.getLast?, c ≠ '\r' ∧ Text.isFileLineEnd c = false := by
    rw [hsemicolon]
    rintro c ⟨⟩
    decide
  obtain ⟨-, hperform, -⟩ := FileCommand.perform_toUTF8 hlast "a.mpl" []
  have hsource : String.ofList (Text.unifySeparators (Text.unifyLineEnds t.toList)) =
      "print \"a\";\nprint 1\n;" := by decide +kernel
  have hcount : (Text.fileLines t).length = 3 := by decide +kernel
  refine ⟨hlast, Text.unifySeparators_eq_self_iff.1 (by decide +kernel), (hperform .run).trans ?_⟩
  rw [hsource, fileText_toUTF8, hcount]
  rfl

/-- A line separator in a text literal is no line end of the program, but in a file it ends the
    line, and the literal is not closed. -/
theorem fileText_of_line_separator :
    let t := "print \"a\u2028b\";"
    Text.unifyLineEnds t.toList = t.toList ∧ (Stream.ofSource t).fault? = none ∧
      (fileText "a.mpl" (some t.toUTF8)).result = .ok "print \"a\nb\";" ∧
      (Stream.ofSource "print \"a\nb\";").fault? = some ⟨.unterminatedText "a", ⟨1, 7⟩⟩ := by
  intro t
  refine ⟨by decide, by decide +kernel, ?_, by decide +kernel⟩
  rw [fileText_toUTF8]
  exact congrArg Except.ok (by decide +kernel)

end MiniPL
