import Slick.Decimal.Basic
import Slick.Quotient

/-!
# Rounding to a precision

Reading a numeral is exact, but arithmetic delivers its results through a context that
bounds the number of digits and the size of the exponent. A coefficient with too many
digits goes to the nearest one that fits, and a tie goes to the even neighbour.
-/

namespace Slick.Decimal

/-- `n / 10 ^ k` rounded to the nearest integer, a tie to the even one. -/
def roundHalfEven (n k : Nat) : Nat := nearestQuotient n (placeValue k)

/-- The same quotient, with no power of ten beyond the digits of `n`. -/
def shiftRight (n k : Nat) : Nat :=
  if digitCount n < k then 0 else roundHalfEven n k

/-- The bounds that results of arithmetic obey. Exponents are those of the leading digit. -/
structure Context where
  precision : Nat
  minExponent : Int
  maxExponent : Int

/-- Results have at most 28 digits and a leading digit between `10 ^ -999999` and `10 ^ 999999`. -/
def Context.standard : Context := ⟨28, -999999, 999999⟩

namespace Context

/-- The least exponent of a result. -/
def least (ctx : Context) : Int := ctx.minExponent - ctx.precision + 1

/-- The greatest exponent of a result that has all its digits. -/
def greatest (ctx : Context) : Int := ctx.maxExponent - ctx.precision + 1

end Context

/-- What arithmetic cannot deliver. -/
inductive Fault where
  /-- The result is too large for the context. -/
  | overflow
  /-- The operand is a signaling not-a-number. -/
  | invalid
  deriving DecidableEq, Repr

/-- The finite result `±coefficient · 10 ^ exponent` fitted to the context. A zero keeps its
exponent as far as the context has it; any other number is rounded to the precision, and near
the least exponent to fewer digits. -/
def fit (ctx : Context) (negative : Bool) (coefficient : Nat) (exponent : Int) :
    Except Fault Decimal :=
  if coefficient = 0 then
    .ok (finite negative 0 (min (max exponent ctx.least) ctx.maxExponent))
  else
    let place := digitCount coefficient + exponent - ctx.precision
    if ctx.greatest < place then .error .overflow
    else
      let place := max place ctx.least
      if place ≤ exponent then .ok (finite negative coefficient exponent)
      else
        let rounded := shiftRight coefficient (place - exponent).toNat
        if ctx.precision < digitCount rounded then
          if ctx.greatest < place + 1 then .error .overflow
          else .ok (finite negative (rounded / 10) (place + 1))
        else .ok (finite negative rounded place)

/-- The negative of a number, delivered through the context. The negative of a zero is positive. -/
def negate (ctx : Context) : Decimal → Except Fault Decimal
  | finite negative coefficient exponent =>
    fit ctx (coefficient ≠ 0 && !negative) coefficient exponent
  | infinite negative => .ok (infinite (!negative))
  | nan _ true _ => .error .invalid
  | nan negative false payload => .ok (nan negative false (payload % placeValue ctx.precision))

/-- The rounded quotient is nearest: it is off by at most half a unit. -/
theorem roundHalfEven_near (n k : Nat) :
    2 * (roundHalfEven n k * placeValue k) ≤ 2 * n + placeValue k ∧
      2 * n ≤ 2 * (roundHalfEven n k * placeValue k) + placeValue k :=
  nearestQuotient_near n (placeValue_pos k)

/-- A tie goes to the even neighbour. -/
theorem roundHalfEven_even_of_tie {n k : Nat} (h : 2 * (n % placeValue k) = placeValue k) :
    roundHalfEven n k % 2 = 0 :=
  nearestQuotient_even_of_tie h

/-- A shift to the right rounds half to even, however far it goes. -/
theorem shiftRight_eq (n k : Nat) : shiftRight n k = roundHalfEven n k := by
  unfold shiftRight
  split
  · next h =>
    have hpos := digitCount_pos n
    have hn : n < placeValue (k - 1) := (digitCount_le_iff (by omega)).mp (by omega)
    have hk : placeValue k = 10 * placeValue (k - 1) := by
      rw [← placeValue_succ, Nat.sub_add_cancel (by omega)]
    exact (nearestQuotient_eq_zero (by omega)).symm
  · rfl

/-- A coefficient within the precision is negated exactly, unless the exponent is out of range. -/
theorem fit_of_digitCount_le {ctx : Context} {negative : Bool} {coefficient : Nat} {exponent : Int}
    (hzero : coefficient ≠ 0) (hdigits : digitCount coefficient ≤ ctx.precision)
    (hleast : ctx.least ≤ exponent)
    (hgreatest : digitCount coefficient + exponent - ctx.precision ≤ ctx.greatest) :
    fit ctx negative coefficient exponent = .ok (finite negative coefficient exponent) := by
  simp only [fit, if_neg hzero]
  rw [if_neg (by omega), if_pos (by omega)]

end Slick.Decimal
