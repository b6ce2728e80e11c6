import MiniPL.Text.Numeral
import MiniPL.VarType

/-!
# Values

Variables hold integers without bounds, texts, and truth values; a variable that was
never given a value holds none. A variable of type `bool` may also hold a text, as
an input line is stored there as it is (`Value.fits`).

A variable that was there before the program may hold any value. So every operation
says what it makes of all values for which it has a meaning:

* every value counts as true or false: a text counts as true unless it is empty, a
  number unless it is zero (`Value.truthy`);
* where numbers are taken, a truth value is a number, 1 or 0 (`Value.number?`);
* two texts are added by joining them, and a text times a number is repeated;
* two texts are compared by their characters.
-/

namespace MiniPL

/-- The values of variables and expressions. -/
inductive Value
  | int (n : Int)
  | text (s : String)
  | bool (b : Bool)
  deriving DecidableEq, Repr

namespace Value

/-- Whether a value counts as true. -/
def truthy : Value → Bool
  | int n => n ≠ 0
  | text s => s ≠ ""
  | bool b => b

/-- The number that a value is, if it is one. -/
def number? : Value → Option Int
  | int n => some n
  | bool b => some (if b then 1 else 0)
  | text _ => none

/-- The result of an operation on numbers, if two values are numbers. -/
def onNumbers {β : Type} (f : Int → Int → β) (a b : Value) : Option β :=
  match a.number?, b.number? with
  | some m, some n => some (f m n)
  | _, _ => none

/-- The text that is `s` repeated `n` times. -/
def repeated (s : String) (n : Int) : String := .join (List.replicate n.toNat s)

/-- The sum of two values, if they have one. -/
def plus? : Value → Value → Option Value
  | text s, text t => some (text (s ++ t))
  | a, b => (onNumbers (· + ·) a b).map int

/-- The difference of two values, if they have one. -/
def minus? (a b : Value) : Option Value := (onNumbers (· - ·) a b).map int

/-- The product of two values, if they have one. -/
def times? : Value → Value → Option Value
  | text s, b => b.number?.map fun n => text (repeated s n)
  | a, text t => a.number?.map fun n => text (repeated t n)
  | a, b => (onNumbers (· * ·) a b).map int

/-- Whether two values are the same. -/
def same : Value → Value → Bool
  | text s, text t => s = t
  | a, b => (onNumbers (fun m n => decide (m = n)) a b).getD false

/-- Whether a value is less than another one, if they compare. -/
def less? : Value → Value → Option Bool
  | text s, text t => some (s < t)
  | a, b => onNumbers (fun m n => decide (m < n)) a b

/-- A value as output. -/
def write : Value → Except Text.ConversionFault String
  | int n => Text.writeInt n
  | text s => .ok s
  | bool b => .ok (if b then "true" else "false")

/-- A value as a part of a text. -/
def spelled : Value → Except Text.ConversionFault String
  | int n => Text.writeInt n
  | text s => .ok s
  | bool b => .ok (if b then "True" else "False")

/-- What a variable may hold, as output. -/
def writeOption : Option Value → Except Text.ConversionFault String
  | some v => v.write
  | none => .ok "None"

/-- What a variable may hold, in a listing. -/
def listing : Option Value → String
  | some (int n) => toString n
  | some (text s) => Text.quoted s
  | some (bool b) => if b then "True" else "False"
  | none => "None"

/-- Whether a variable of type `ty` may hold a value. -/
def fits : VarType → Value → Bool
  | .int, int _ => true
  | .string, text _ => true
  | .bool, bool _ => true
  | .bool, text _ => true
  | _, _ => false

end Value

end MiniPL
