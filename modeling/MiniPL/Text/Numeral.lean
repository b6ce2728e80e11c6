import MiniPL.Text.Blank
import MiniPL.Text.Quoted

/-!
# Numbers as text

Integers have no bounds, but their decimal texts do: a text of more than 4300
digits is neither read nor written. Leading zeros count as digits, a sign does not.

On an input line an integer may have a sign, and blanks around it. Among these
blanks, the information separators are refused, those before the digits before the
digits are counted and those after the digits after.

* `writeInt`: the text of an integer;
* `readDigits`: the value of a row of digits;
* `Numeral.ofLine?`: what on a line may be an integer, and `Numeral.value` the
  integer it is.
-/

namespace MiniPL.Text

/-- Why an integer is not read from its text, or not written as text. -/
inductive ConversionFault
  /-- A text of more digits than are read. -/
  | tooManyDigits (digits : Nat)
  /-- An integer of more digits than are written. -/
  | tooLong
  /-- A line with a separator next to the number. -/
  | notANumber (line : String)
  deriving DecidableEq, Repr

/-- The most digits that a text of an integer may have. -/
def digitLimit : Nat := 4300

namespace ConversionFault

/-- What is said about the limit. -/
def limitText : String := s!"Exceeds the limit ({digitLimit} digits) for integer string conversion"

/-- What may be done about the limit. -/
def adviceText : String := "use sys.set_int_max_str_digits() to increase the limit"

/-- The wording of a fault. A long line is cut off in it. -/
def message : ConversionFault → String
  | tooManyDigits digits => s!"{limitText}: value has {digits} digits; {adviceText}"
  | tooLong => s!"{limitText}; {adviceText}"
  | notANumber line =>
      "invalid literal for int() with base 10: " ++ String.ofList ((quoted line).toList.take 200)

end ConversionFault

/-- The value of a row of digits. -/
def digitsValue (digits : List Char) : Nat :=
  digits.foldl (fun n c => 10 * n + (c.toNat - '0'.toNat)) 0

/-- The value of a row of digits that is not too long. -/
def readDigits (digits : List Char) : Except ConversionFault Nat :=
  if digits.length ≤ digitLimit then .ok (digitsValue digits)
  else .error (.tooManyDigits digits.length)

/-- The text of an integer that is not too long. -/
def writeInt (n : Int) : Except ConversionFault String :=
  if n.natAbs.repr.length ≤ digitLimit then .ok (toString n) else .error .tooLong

/-- A line that may hold an integer: blanks, an optional sign, digits, blanks. -/
structure Numeral where
  before : List Char
  negative : Bool
  digits : List Char
  after : List Char

namespace Numeral

/-- A line without the sign it starts with, and whether that is a minus. -/
def splitSign : List Char → Bool × List Char
  | '-' :: cs => (true, cs)
  | '+' :: cs => (false, cs)
  | cs => (false, cs)

/-- The parts of a line that may hold an integer, or nothing if it holds none. -/
def ofLine? (line : String) : Option Numeral :=
  let unsigned := splitSign (line.toList.dropWhile isBlank)
  let digits := unsigned.2.takeWhile Char.isDigit
  let after := unsigned.2.dropWhile Char.isDigit
  if digits ≠ [] ∧ after.all isBlank then
    some ⟨line.toList.takeWhile isBlank, unsigned.1, digits, after⟩
  else none

/-- The integer that `line`, with the parts `parts`, holds. -/
def value (parts : Numeral) (line : String) : Except ConversionFault Int := do
  if parts.before.any isSeparator then throw (.notANumber line)
  let n ← readDigits parts.digits
  if parts.after.any isSeparator then throw (.notANumber line)
  return if parts.negative then -n else n

end Numeral

end MiniPL.Text
