import MiniPL.Text.Letter
import MiniPL.Token
import MiniPL.Token.Fault

/-!
# Recognizing a lexeme

`recognize` finds the lexeme that a text starts with, when the text starts with no
gap. The lexeme is the longest possible one: a word takes all letters, numerals and
underscores that follow, a number all digits, and `:=` goes before `:`.

There is no lexeme when the text starts like one that cannot be completed. The
fault then has an offset in the text: that of the first character, except that an
escape that is unknown has the offset of its backslash. How much of the text had
been read when the fault was found is told as well, for a reader that wants to go
on from there.
-/

namespace MiniPL

/-- What a text starts with, when it starts with no gap. -/
inductive Recognized
  /-- A lexeme of the given length. -/
  | lexeme (l : Lexeme) (length : Nat)
  /-- A fault at the given offset, found with the given length read. -/
  | fault (f : LexicalFault) (offset length : Nat)
  deriving DecidableEq, Repr

/-- The symbols of one character that no longer symbol starts with. -/
def Symbol.ofChar? : Char → Option Symbol
  | '(' => some .openParen
  | ')' => some .closeParen
  | ';' => some .semicolon
  | '+' => some .plus
  | '-' => some .minus
  | '/' => some .slash
  | '*' => some .star
  | '=' => some .equal
  | '<' => some .less
  | '>' => some .greater
  | '&' => some .ampersand
  | '!' => some .bang
  | _ => none

/-- The character that an escape, a backslash with the given character after it,
    stands for. -/
def unescape? : Char → Option Char
  | 'n' => some '\n'
  | 't' => some '\t'
  | '\'' => some '\''
  | '"' => some '"'
  | 'r' => some '\r'
  | 'f' => some '\x0c'
  | 'v' => some '\x0b'
  | '\\' => some '\\'
  | _ => none

namespace Recognized

/-- The rest of a text literal, of which the given content (the last character
    first) and length have been read. -/
def text (content : List Char) (length : Nat) : List Char → Recognized
  | [] => fault (.unterminatedText (.ofList content.reverse)) 0 length
  | c :: cs =>
    if c = '"' then lexeme (.text (.ofList content.reverse)) (length + 1)
    else if c = '\n' then fault (.unterminatedText (.ofList content.reverse)) 0 length
    else if c = '\\' then
      match cs with
      | [] => fault (.unknownEscape (.ofList content.reverse) none) length (length + 1)
      | e :: cs =>
        match unescape? e with
        | some meant => text (meant :: content) (length + 2) cs
        | none => fault (.unknownEscape (.ofList content.reverse) (some e)) length (length + 1)
    else text (c :: content) (length + 1) cs

/-- A number: all digits at the start of the text, with nothing after them that
    starts a name. -/
def number (cs : List Char) : Recognized :=
  let digits := cs.takeWhile Char.isDigit
  match (cs.dropWhile Char.isDigit).head? with
  | some c =>
    if Text.isNameStart c then fault (.digitsInName (.ofList digits) c) 0 digits.length
    else lexeme (.int (.ofList digits)) digits.length
  | none => lexeme (.int (.ofList digits)) digits.length

/-- A word: all characters at the start of the text that may stand in a name. -/
def word (cs : List Char) : Recognized :=
  let chars := cs.takeWhile Text.isNamePart
  lexeme (.ofWord (.ofList chars)) chars.length

end Recognized

/-- What the text `c :: cs` starts with, when it starts with no gap. -/
def recognize (c : Char) (cs : List Char) : Recognized :=
  match Symbol.ofChar? c with
  | some s => .lexeme (.symbol s) 1
  | none =>
    if c = ':' then
      if cs.head? = some '=' then .lexeme (.symbol .assign) 2 else .lexeme (.symbol .colon) 1
    else if c = '.' then
      if cs.head? = some '.' then .lexeme (.symbol .range) 2 else .fault (.loneDot cs.head?) 0 1
    else if c.isDigit then .number (c :: cs)
    else if Text.isNameStart c then .word (c :: cs)
    else if c = '"' then .text [] 1 cs
    else .fault (.invalidChar c) 0 0

namespace Recognized

/-- A text literal is longer than what has been read of it. -/
theorem lt_length_of_text {content : List Char} {length : Nat} {cs : List Char} {l : Lexeme}
    {k : Nat} (h : text content length cs = lexeme l k) : length < k := by
  fun_induction text content length cs with
  | case1 => cases h
  | case2 => cases h; omega
  | case3 => cases h
  | case4 => cases h
  | case5 _ _ _ _ _ _ _ _ ih => have := ih h; omega
  | case6 => cases h
  | case7 _ _ _ _ _ _ _ ih => have := ih h; omega

theorem length_of_number {cs : List Char} {l : Lexeme} {k : Nat} (h : number cs = lexeme l k) :
    k = (cs.takeWhile Char.isDigit).length := by
  simp only [number] at h
  split at h
  · split at h <;> cases h
    rfl
  · cases h
    rfl

end Recognized

/-- A lexeme has at least one character. -/
theorem length_pos_of_recognize {c : Char} {cs : List Char} {l : Lexeme} {k : Nat}
    (h : recognize c cs = .lexeme l k) : 0 < k := by
  unfold recognize at h
  split at h
  · cases h; omega
  split at h
  · split at h <;> cases h <;> omega
  split at h
  · split at h <;> cases h
    omega
  split at h
  · next hd => simp [Recognized.length_of_number h, hd]
  split at h
  · next hn => cases h; simp [Text.isNamePart_of_isNameStart hn]
  split at h
  · have := Recognized.lt_length_of_text h; omega
  · cases h

end MiniPL
