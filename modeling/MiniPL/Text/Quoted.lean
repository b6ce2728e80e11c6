import MiniPL.Text.Printable

/-!
# Quoted text

Listings of tokens and of variables show a text in quotes, on one line. The quote
is `'`, unless the text holds a `'` and no `"`. Within the quotes:

* the quote and the backslash have a backslash before them;
* the line feed, the carriage return and the tab are `\n`, `\r` and `\t`;
* any other character that is not printable (`isPrintable`) is its code point in
  lower-case hexadecimal: `\xhh`, `\uhhhh` or `\Uhhhhhhhh`, the shortest of these
  that can hold it.
-/

namespace MiniPL.Text

/-- The last `width` hexadecimal digits of `n`, in lower case. -/
def hexDigits : (width n : Nat) → List Char
  | 0, _ => []
  | width + 1, n => hexDigits width (n / 16) ++ [Nat.digitChar (n % 16)]

/-- There are as many hexadecimal digits as asked for. -/
theorem length_hexDigits (width n : Nat) : (hexDigits width n).length = width := by
  induction width generalizing n with
  | zero => rfl
  | succ width ih => simp [hexDigits, ih]

/-- The escape of a character that is not printable. -/
def escapeCode (c : Char) : List Char :=
  if c.toNat < 0x100 then '\\' :: 'x' :: hexDigits 2 c.toNat
  else if c.toNat < 0x10000 then '\\' :: 'u' :: hexDigits 4 c.toNat
  else '\\' :: 'U' :: hexDigits 8 c.toNat

/-- How `c` is written between two `quote`s. -/
def escapeChar (quote c : Char) : List Char :=
  if c = quote ∨ c = '\\' then ['\\', c]
  else if c = '\n' then ['\\', 'n']
  else if c = '\r' then ['\\', 'r']
  else if c = '\t' then ['\\', 't']
  else if isPrintable c then [c]
  else escapeCode c

/-- The quote for a text: `'`, unless only the other one stays without escapes. -/
def quoteFor (cs : List Char) : Char :=
  if '\'' ∈ cs ∧ '"' ∉ cs then '"' else '\''

/-- The text in quotes. -/
def quoted (s : String) : String :=
  let quote := quoteFor s.toList
  .ofList (quote :: s.toList.flatMap (escapeChar quote) ++ [quote])

end MiniPL.Text
