import MiniPL.Decimal.Binary

/-!
# Shortest decimals

A floating-point number is written as the shortest decimal that is rounded to it; of
several such decimals, as the one nearest to it, and of two that are equally near, as
the one with an even last digit.

A decimal of `n` digits is looked for on the grid of the decimals that have so many
digits, at the place of the leading digit of the number (`Magnitude.point`). Only the
two neighbours of the number on the grid need a look. Grids are tried from the
coarsest on. All comparisons are between natural numbers, hence exact.

What is selected reads back (`readsBack_of_onGrid`).
-/

namespace MiniPL

/-- The number `digits * 10 ^ exponent`. -/
structure Decimal where
  digits : Nat
  exponent : Int
  deriving DecidableEq, Repr

/-- How many digits a natural number has. -/
def Decimal.width (n : Nat) : Nat := (Nat.toDigits 10 n).length

namespace BinaryFloat.Magnitude

/-- How a decimal compares with `quarters` quarters of the unit of a number. -/
def compareQuarters (x : Magnitude) (d : Decimal) (quarters : Nat) : Ordering :=
  let e := x.exponent - 2
  compare (d.digits * Nat.pow 10 d.exponent.toNat * Nat.pow 2 (-e).toNat)
    (quarters * Nat.pow 2 e.toNat * Nat.pow 10 (-d.exponent).toNat)

/-- Whether a decimal is rounded to a number. -/
def readsBack (x : Magnitude) (d : Decimal) : Bool :=
  match x.compareQuarters d x.low, x.compareQuarters d x.high with
  | .gt, .lt => true
  | .eq, .lt => x.closed
  | .gt, .eq => x.closed
  | _, _ => false

/-- The place of the decimal point relative to the leading digit: the least `k` with
    `x < 10 ^ k`. -/
def point (x : Magnitude) : Int :=
  if x.denominator ≤ x.numerator then Decimal.width (x.numerator / x.denominator)
  else 1 - Decimal.width ((x.denominator - 1) / x.numerator)

/-- The shortest decimal that is rounded to a number, on the grid with the given
    exponent: the nearer one of the neighbours of the number, if both are. -/
def onGrid? (x : Magnitude) (exponent : Int) : Option Decimal :=
  let num := x.numerator * Nat.pow 10 (-exponent).toNat
  let den := x.denominator * Nat.pow 10 exponent.toNat
  let below : Decimal := ⟨num / den, exponent⟩
  let above : Decimal := ⟨num / den + 1, exponent⟩
  let nearer :=
    match compare (2 * (num % den)) den with
    | .lt => below
    | .gt => above
    | .eq => if below.digits % 2 = 0 then below else above
  [nearer, below, above].find? x.readsBack

/-- The most digits that are tried. -/
def digitBound : Nat := 17

/-- The decimal that is exactly a number. -/
def exact (x : Magnitude) : Decimal :=
  if 0 ≤ x.exponent then ⟨x.numerator, 0⟩
  else ⟨x.significand * Nat.pow 5 (-x.exponent).toNat, x.exponent⟩

/-- The shortest decimal that is rounded to a number. -/
def shortest (x : Magnitude) : Decimal :=
  ((List.range digitBound).findSome? fun (n : Nat) => x.onGrid? (x.point - (n + 1))).getD x.exact

/-- What is found on a grid is rounded to the number. -/
theorem readsBack_of_onGrid {x : Magnitude} {exponent : Int} {d : Decimal}
    (h : x.onGrid? exponent = some d) : x.readsBack d :=
  List.find?_some h

end BinaryFloat.Magnitude

end MiniPL
