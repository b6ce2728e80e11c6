import MiniPL.Decimal.Shortest

/-!
# Floating-point numbers as text

A number is written with the digits of its shortest decimal, positionally if its
leading digit stands for at least `10 ^ (-4)` and less than `10 ^ 16`, and otherwise
with one digit before the point and an exponent. There is a digit on both sides of the
point, but no point right before an exponent. An exponent has a sign and two digits
at least.
-/

namespace MiniPL

namespace Decimal

/-- The digits of a natural number, the leading one first, without the zeros at the
    end. -/
def significantDigits (n : Nat) : List Char :=
  ((Nat.toDigits 10 n).reverse.dropWhile (· == '0')).reverse

/-- A row of zeros. -/
def zeros (n : Int) : List Char := List.replicate n.toNat '0'

/-- The digits `ds` with the point after the first `point` of them. -/
def positional (ds : List Char) (point : Int) : List Char :=
  if point ≤ 0 then '0' :: '.' :: zeros (-point) ++ ds
  else if point < ds.length then ds.take point.toNat ++ '.' :: ds.drop point.toNat
  else ds ++ zeros (point - ds.length) ++ ['.', '0']

/-- An exponent, with its sign and two digits at least. -/
def exponentMark (e : Int) : List Char :=
  let digits := Nat.toDigits 10 e.natAbs
  'e' :: (if e < 0 then '-' else '+') :: zeros (2 - digits.length) ++ digits

/-- The digits `ds` with the point after the first one, and the exponent `e`. -/
def scientific (ds : List Char) (e : Int) : List Char :=
  match ds with
  | d :: rest@(_ :: _) => d :: '.' :: rest ++ exponentMark e
  | ds => ds ++ exponentMark e

/-- The leading digits that are written positionally stand for powers of ten with an
    exponent from this one on. -/
def positionalFrom : Int := -4

/-- The leading digits that are written positionally stand for powers of ten with an
    exponent below this one. -/
def positionalBelow : Int := 16

/-- The text of a decimal other than zero. -/
def text (d : Decimal) : List Char :=
  let point := d.exponent + width d.digits
  let leading := point - 1
  let ds := significantDigits d.digits
  if positionalFrom ≤ leading ∧ leading < positionalBelow then positional ds point
  else scientific ds leading

end Decimal

namespace BinaryFloat

/-- A text with a minus before it if it is the text of a negative number. -/
def signed (negative : Bool) (text : List Char) : String :=
  .ofList (if negative then '-' :: text else text)

/-- The text of a floating-point number. -/
def text : BinaryFloat → String
  | nan => "nan"
  | infinite negative => signed negative "inf".toList
  | zero negative => signed negative "0.0".toList
  | finite negative x => signed negative x.shortest.text

end BinaryFloat

end MiniPL
