import MiniPL.Log

/-!
# The balance of blocks

A line given to a session is held back while more blocks have been opened than
closed. What a line opens and closes is counted by its keywords alone, up to the first
lexical fault of the line.
-/

namespace MiniPL

/-- What a lexeme adds to the number of open blocks. -/
def Lexeme.balance : Lexeme → Int
  | .keyword .doK => 1
  | .keyword .endK => -1
  | _ => 0

/-- What tokens add to the number of open blocks. -/
def blockBalance (tokens : List Token) : Int :=
  (tokens.map (·.lexeme.balance)).foldr (· + ·) 0

/-- What a text adds to the number of open blocks, with the log of its items. -/
def countBlocks (source : String) : List LogEntry × Int :=
  let stream := Stream.ofSource source
  (stream.items.map fun i => .parsing (.item i), blockBalance stream.tokens)

/-- What a text adds to the number of open blocks. -/
def sourceBalance (source : String) : Int := (countBlocks source).2

end MiniPL
