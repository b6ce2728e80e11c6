import MiniPL.Position

/-!
# Tokens

A program is a row of tokens. What a token is, without its place, is a *lexeme*: a
symbol, a keyword, a name, the digits of an integer, or the content of a text
literal. The content is the text meant, with the escapes resolved.

The *kind* of a lexeme forgets names, digits and contents. Kinds are what syntax
errors speak of (`Kind.label`); besides those of lexemes there is the end of the
program.
-/

namespace MiniPL

/-- The operators and punctuation marks. -/
inductive Symbol
  | openParen
  | closeParen
  | semicolon
  | colon
  | plus
  | minus
  | slash
  | star
  | equal
  | less
  | greater
  | ampersand
  | bang
  | assign
  | range
  deriving DecidableEq, Repr

/-- The words that are no names. -/
inductive Keyword
  | forK
  | inK
  | ifK
  | elseK
  | doK
  | endK
  | varK
  | printK
  | readK
  | intK
  | stringK
  | boolK
  | assertK
  deriving DecidableEq, Repr

/-- What a token is, wherever it stands. -/
inductive Lexeme
  | symbol (s : Symbol)
  | keyword (k : Keyword)
  | name (text : String)
  | int (digits : String)
  | text (content : String)
  deriving DecidableEq, Repr

/-- A lexeme in its place: that of its first character. -/
structure Token where
  lexeme : Lexeme
  pos : Pos
  deriving DecidableEq, Repr

/-- What a syntax error tells about a token. -/
inductive Kind
  | symbol (s : Symbol)
  | keyword (k : Keyword)
  | name
  | int
  | text
  | eof
  deriving DecidableEq, Repr

namespace Symbol

/-- How a symbol is written. -/
def text : Symbol → String
  | openParen => "("
  | closeParen => ")"
  | semicolon => ";"
  | colon => ":"
  | plus => "+"
  | minus => "-"
  | slash => "/"
  | star => "*"
  | equal => "="
  | less => "<"
  | greater => ">"
  | ampersand => "&"
  | bang => "!"
  | assign => ":="
  | range => ".."

/-- What a symbol is called. -/
def label : Symbol → String
  | openParen => "LPAREN"
  | closeParen => "RPAREN"
  | semicolon => "SEMICOLON"
  | colon => "COLON"
  | plus => "PLUS"
  | minus => "MINUS"
  | slash => "DIV"
  | star => "MUL"
  | equal => "EQ"
  | less => "LT"
  | greater => "GT"
  | ampersand => "AND"
  | bang => "NOT"
  | assign => "ASSIGN"
  | range => "RANGE"

end Symbol

namespace Keyword

/-- How a keyword is written. -/
def text : Keyword → String
  | forK => "for"
  | inK => "in"
  | ifK => "if"
  | elseK => "else"
  | doK => "do"
  | endK => "end"
  | varK => "var"
  | printK => "print"
  | readK => "read"
  | intK => "int"
  | stringK => "string"
  | boolK => "bool"
  | assertK => "assert"

/-- What a keyword is called. -/
def label : Keyword → String
  | forK => "FOR"
  | inK => "IN"
  | ifK => "IF"
  | elseK => "ELSE"
  | doK => "DO"
  | endK => "END"
  | varK => "VAR"
  | printK => "PRINT"
  | readK => "READ"
  | intK => "INT"
  | stringK => "STRING"
  | boolK => "BOOL"
  | assertK => "ASSERT"

/-- All keywords. -/
def all : List Keyword :=
  [forK, inK, ifK, elseK, doK, endK, varK, printK, readK, intK, stringK, boolK, assertK]

/-- The keyword that is written `word`. -/
def ofText? (word : String) : Option Keyword :=
  all.find? (·.text = word)

theorem mem_all (k : Keyword) : k ∈ all := by cases k <;> decide

/-- A keyword is found by how it is written. -/
@[simp] theorem ofText?_text (k : Keyword) : ofText? k.text = some k := by
  cases k <;> decide

/-- What is found by a word is written so. -/
theorem text_of_ofText? {word : String} {k : Keyword} (h : ofText? word = some k) :
    k.text = word := by
  simpa using List.find?_some h

end Keyword

namespace Lexeme

/-- The kind of a lexeme. -/
def kind : Lexeme → Kind
  | symbol s => .symbol s
  | keyword k => .keyword k
  | name _ => .name
  | int _ => .int
  | text _ => .text

/-- What a lexeme shows: how it is written, but for the content of a text literal,
    which stands between its quotes as it is meant. -/
def shown : Lexeme → String
  | symbol s => s.text
  | keyword k => k.text
  | name t => t
  | int digits => digits
  | text content => "\"" ++ content ++ "\""

/-- A word is a keyword or else a name. -/
def ofWord (word : String) : Lexeme :=
  match Keyword.ofText? word with
  | some k => keyword k
  | none => name word

/-- A word shows as it is written. -/
@[simp] theorem shown_ofWord (word : String) : (ofWord word).shown = word := by
  unfold ofWord
  split
  · next h => exact Keyword.text_of_ofText? h
  · rfl

end Lexeme

namespace Kind

/-- What a kind is called. -/
def label : Kind → String
  | symbol s => s.label
  | keyword k => k.label
  | name => "IDENT"
  | int => "INT_LITERAL"
  | text => "STRING_LITERAL"
  | eof => "EOF"

end Kind

end MiniPL
