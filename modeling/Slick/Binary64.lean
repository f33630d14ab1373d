import Slick.Decimal.Basic
import Slick.Quotient

/-!
# Binary numbers of double precision

Every finite number of the format is a whole number of units of `2 ^ -1074`, and has at most
53 significant binary digits. Results are exact ones brought to the nearest such number, ties
to the even one; what is too large becomes an infinity. Signs of zeros and payloads play no
part.
-/

namespace Slick

/-- A number of double precision. -/
inductive Binary64 where
  /-- So many units of `2 ^ -1074`. -/
  | finite (units : Int)
  | infinite (negative : Bool)
  | nan
  deriving DecidableEq, Repr

namespace Binary64

/-- The number of units in one. -/
def one : Nat := 1 <<< 1074

/-- The first power of two that is too large, in units. -/
def limit : Nat := 1 <<< 2098

/-- The quotient of two natural numbers as the nearest one with at most 53 binary digits. -/
def significant (n d : Nat) : Nat :=
  let shift := Nat.log2 (n / d) + 1 - 53
  nearestQuotient n (d <<< shift) <<< shift

/-- So many units with a sign, or an infinity. -/
def ofUnits (negative : Bool) (units : Nat) : Binary64 :=
  if limit ≤ units then infinite negative
  else finite (if negative then -units else units)

/-- The number nearest to `±n / d`, the quotient given in units. -/
def ofQuotient (negative : Bool) (n d : Nat) : Binary64 := ofUnits negative (significant n d)

/-- The number nearest to an integer. -/
def ofInt (n : Int) : Binary64 := ofQuotient (n < 0) (n.natAbs * one) 1

/-- The number nearest to `±coefficient · 10 ^ exponent`. -/
def ofDecimal (negative : Bool) (coefficient : Nat) (exponent : Int) : Binary64 :=
  let magnitude := Decimal.digitCount coefficient + exponent
  if coefficient = 0 ∨ magnitude < -400 then finite 0
  else if 400 < magnitude then infinite negative
  else
    ofQuotient negative (coefficient * Decimal.placeValue exponent.toNat * one)
      (Decimal.placeValue (-exponent).toNat)

/-- The sum of two numbers. -/
def add : Binary64 → Binary64 → Binary64
  | finite a, finite b => ofQuotient (a + b < 0) (a + b).natAbs 1
  | infinite a, infinite b => if a = b then infinite a else nan
  | infinite a, finite _ => infinite a
  | finite _, infinite b => infinite b
  | nan, _ => nan
  | _, nan => nan

/-- Whether a number is below zero. -/
def isNegative : Binary64 → Bool
  | finite units => units < 0
  | infinite negative => negative
  | nan => false

/-- Whether a number is neither an infinity nor not-a-number. -/
def isFinite : Binary64 → Bool
  | finite _ => true
  | _ => false

/-- The product of two numbers. -/
def mul (a b : Binary64) : Binary64 :=
  let negative := a.isNegative != b.isNegative
  match a, b with
  | finite x, finite y => ofQuotient negative (x.natAbs * y.natAbs) one
  | nan, _ => nan
  | _, nan => nan
  | finite 0, infinite _ => nan
  | infinite _, finite 0 => nan
  | _, _ => infinite negative

/-- The negative of a number. -/
def neg : Binary64 → Binary64
  | finite units => finite (-units)
  | infinite negative => infinite (!negative)
  | nan => nan

end Binary64

end Slick
