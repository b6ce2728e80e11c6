/-!
# Lines

Text is cut into lines at line ends. The last line may lack its end, and a line end
at the very end of the text does not start another line: `"a\n"` is one line, and
the empty text is none.

What ends a line depends on where the text comes from. Standard input is cut at
line feeds only (`inputLines`). A file may end its lines in `\r\n` or `\r` as well,
and is also cut at the vertical tab, the form feed, the separators `U+001C` to
`U+001E`, the next-line control and the two separators `U+2028` and `U+2029`
(`fileLines`).

Where lines are counted, as positions do, the text is simply cut at its line feeds
(`pieces`).
-/

namespace MiniPL.Text

/-- The lines of a text of which the characters with `isEnd` end lines. -/
def splitLines (isEnd : Char → Bool) (cs : List Char) : List (List Char) :=
  cs.foldr (fun c lines =>
    if isEnd c then [] :: lines
    else match lines with
      | [] => [[c]]
      | line :: rest => (c :: line) :: rest) []

section

variable (isEnd : Char → Bool)

@[simp] theorem splitLines_nil : splitLines isEnd [] = [] := rfl

/-- A line end closes a line, empty so far. -/
theorem splitLines_cons_of_isEnd {c : Char} (h : isEnd c) (cs : List Char) :
    splitLines isEnd (c :: cs) = [] :: splitLines isEnd cs := by
  simp [splitLines, h]

/-- The characters of the lines are those of the text but for the line ends. -/
theorem flatten_splitLines (cs : List Char) :
    (splitLines isEnd cs).flatten = cs.filter (!isEnd ·) := by
  induction cs with
  | nil => rfl
  | cons c cs ih =>
    by_cases h : isEnd c
    · simp [splitLines_cons_of_isEnd isEnd h, ih, h]
    · simp only [splitLines, List.foldr_cons, h, Bool.false_eq_true, if_false, Bool.not_false,
        List.filter_cons_of_pos] at ih ⊢
      rw [← ih]
      split <;> simp_all

end

/-- The pieces of a text between line feeds. There is always one, and one more than
    there are line feeds. -/
def pieces (cs : List Char) : List (List Char) :=
  cs.foldr (fun c pieces =>
    if c = '\n' then [] :: pieces
    else match pieces with
      | [] => [[c]]
      | piece :: rest => (c :: piece) :: rest) [[]]

/-- The lines of a text, each ended by a line feed. -/
def inputLines (s : String) : List String :=
  (splitLines (· == '\n') s.toList).map .ofList

/-- A line as a program reads it: without the carriage returns at its end. -/
def dropReturns (line : String) : String :=
  .ofList (line.toList.reverse.dropWhile (· == '\r')).reverse

/-- Line ends `\r\n` and `\r` as line feeds. -/
def unifyLineEnds : List Char → List Char
  | [] => []
  | '\r' :: '\n' :: cs => '\n' :: unifyLineEnds cs
  | c :: cs => (if c = '\r' then '\n' else c) :: unifyLineEnds cs

/-- The characters that end a line of a file, once `\r\n` and `\r` are line feeds. -/
def isFileLineEnd (c : Char) : Bool :=
  c ∈ ['\n', '\x0b', '\x0c', '\x1c', '\x1d', '\x1e', '\u0085', '\u2028', '\u2029']

/-- The lines of a file. -/
def fileLines (s : String) : List String :=
  (splitLines isFileLineEnd (unifyLineEnds s.toList)).map .ofList

end MiniPL.Text
