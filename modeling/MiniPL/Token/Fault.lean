import MiniPL.Position

/-!
# Lexical faults

A lexical fault is a reason why program text is not a row of tokens. It carries
what was read of the lexeme that cannot be completed (`LexicalFault.shown`).
-/

namespace MiniPL

/-- Why program text cannot be cut into tokens. -/
inductive LexicalFault
  /-- There is no text at all. -/
  | emptySource
  /-- A character that starts no lexeme. -/
  | invalidChar (c : Char)
  /-- A text literal, with its content so far, that is not closed on its line. -/
  | unterminatedText (content : String)
  /-- A backslash, after the content so far of a text literal, with a character
      after it that makes no escape, or with the end of the program. -/
  | unknownEscape (content : String) (next? : Option Char)
  /-- Digits with a letter or an underscore right after them. -/
  | digitsInName (digits : String) (c : Char)
  /-- A block comment that is not closed. -/
  | unclosedComment
  /-- A dot with no second dot after it. -/
  | loneDot (next? : Option Char)
  deriving DecidableEq, Repr

namespace LexicalFault

/-- The wording of a fault. -/
def message : LexicalFault → String
  | emptySource => "Source file is empty"
  | invalidChar _ => "Invalid char error"
  | unterminatedText _ => "Unterminated string"
  | unknownEscape .. => "Unrecognized escape sequence"
  | digitsInName .. => "Illegal char sequence"
  | unclosedComment => "Unenclosed comment"
  | loneDot _ => "Expected \"..\", got \".\" instead"

/-- What was read of the lexeme. -/
def shown : LexicalFault → String
  | emptySource => ""
  | invalidChar c => c.toString
  | unterminatedText content => "\"" ++ content
  | unknownEscape content next? => "\"" ++ content ++ "\\" ++ (next?.elim "" Char.toString)
  | digitsInName digits c => digits ++ c.toString
  | unclosedComment => "/*"
  | loneDot next? => "." ++ (next?.elim "" Char.toString)

end LexicalFault

/-- A lexical fault in its place. -/
abbrev Rejection := Located LexicalFault

end MiniPL
