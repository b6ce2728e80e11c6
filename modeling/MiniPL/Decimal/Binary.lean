/-!
# Binary floating-point numbers

A binary floating-point number of 64 bits is an integer times a power of two, with a
sign, unless it is infinite or no number at all. The integer, the *significand*, has
53 bits at most.

Between two neighbours every real number is rounded to the nearer one; halfway, to
the one with the even significand. So a number stands for an interval of reals. The
ends of this interval, `BinaryFloat.Magnitude.low` and `high`, are counted in quarters
of the unit of the significand: the neighbour above is four quarters away, and so is
the neighbour below, unless the significand is the least one of its size; then it is
two quarters away.
-/

namespace MiniPL

/-- A positive number `significand * 2 ^ exponent`. -/
structure BinaryFloat.Magnitude where
  significand : Nat
  exponent : Int
  significand_pos : 0 < significand
  deriving DecidableEq, Repr

/-- A binary floating-point number. -/
inductive BinaryFloat
  | nan
  | infinite (negative : Bool)
  | zero (negative : Bool)
  | finite (negative : Bool) (magnitude : BinaryFloat.Magnitude)
  deriving DecidableEq, Repr

namespace BinaryFloat

/-- The exponent of the least numbers. -/
def leastExponent : Int := -1074

/-- The least significand of the numbers that are not written with the least exponent. -/
def leastSignificand : Nat := Nat.pow 2 52

/-- The number without a sign that has the given exponent field and fraction field. -/
def ofFields (negative : Bool) (field fraction : Nat) : BinaryFloat :=
  if field = 2047 then if fraction = 0 then infinite negative else nan
  else if field = 0 then
    if h : 0 < fraction then finite negative ⟨fraction, leastExponent, h⟩ else zero negative
  else
    finite negative ⟨leastSignificand + fraction, leastExponent + (field - 1),
      Nat.add_pos_left (by decide) fraction⟩

/-- The number that 64 bits stand for. -/
def ofBits (bits : UInt64) : BinaryFloat :=
  let n := bits.toNat
  ofFields (Nat.pow 2 63 ≤ n) (n / leastSignificand % 2048) (n % leastSignificand)

namespace Magnitude

/-- The lower end of the interval of a number, in quarters of its unit. -/
def low (x : Magnitude) : Nat :=
  if x.significand = leastSignificand ∧ leastExponent < x.exponent then 4 * x.significand - 1
  else 4 * x.significand - 2

/-- The upper end of the interval of a number, in quarters of its unit. -/
def high (x : Magnitude) : Nat := 4 * x.significand + 2

/-- Whether the ends belong to the interval of a number. -/
def closed (x : Magnitude) : Bool := x.significand % 2 == 0

/-- The numerator of a number, as a quotient of naturals. -/
def numerator (x : Magnitude) : Nat := x.significand * Nat.pow 2 x.exponent.toNat

/-- The denominator of a number, as a quotient of naturals. -/
def denominator (x : Magnitude) : Nat := Nat.pow 2 (-x.exponent).toNat

theorem numerator_pos (x : Magnitude) : 0 < x.numerator :=
  Nat.mul_pos x.significand_pos (Nat.pow_pos (by decide))

theorem denominator_pos (x : Magnitude) : 0 < x.denominator := Nat.pow_pos (by decide)

end Magnitude

end BinaryFloat

end MiniPL
