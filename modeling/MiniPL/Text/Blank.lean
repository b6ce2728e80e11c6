import MiniPL.Text.Range

/-!
# Blanks

Around a number on an input line, and around a line given to a session, *blanks*
are skipped: the white space of Unicode, together with the four information
separators `U+001C` to `U+001F`. The separators are blanks for the purpose of
skipping, but a number next to one is refused all the same (`MiniPL.Text.Numeral`).

The white space of program text is a much smaller set, see `MiniPL.Token.Gap`.
-/

namespace MiniPL.Text

/-- The blanks. -/
def blankRanges : Ranges :=
  [(0x9, 0xD), (0x1C, 0x20), (0x85, 0x85), (0xA0, 0xA0), (0x1680, 0x1680), (0x2000, 0x200A),
   (0x2028, 0x2029), (0x202F, 0x202F), (0x205F, 0x205F), (0x3000, 0x3000)]

/-- Whether `c` is a blank. -/
def isBlank (c : Char) : Bool :=
  blankRanges.contains c

/-- Whether `c` is one of the information separators `U+001C` to `U+001F`. -/
def isSeparator (c : Char) : Bool :=
  0x1C ≤ c.toNat && c.toNat ≤ 0x1F

/-- The separators are blanks. -/
theorem isBlank_of_isSeparator {c : Char} (h : isSeparator c) : isBlank c := by
  simp only [isSeparator, Bool.and_eq_true, decide_eq_true_eq] at h
  exact Ranges.contains_iff.2 ⟨(0x1C, 0x20), by simp [blankRanges], h.1, by omega⟩

/-- The text without the blanks before and after it. -/
def trim (s : String) : String :=
  .ofList ((s.toList.dropWhile isBlank).reverse.dropWhile isBlank).reverse

end MiniPL.Text
