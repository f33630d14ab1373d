import Mathlib.Algebra.Order.Field.Power
import Mathlib.Algebra.Order.Field.Rat
import Mathlib.Tactic.FieldSimp
import Mathlib.Tactic.Linarith
import Mathlib.Tactic.Positivity
import Mathlib.Tactic.Ring
import Slick.Proofs.Decimal.Negation
import Slick.Proofs.Decimal.Text

/-!
# How exact the negative of a number is

Taking the negative of a number keeps its coefficient as long as the precision has room for it.
A longer coefficient goes to the nearest one that fits, a tie to the even neighbour, so that the
result is off by at most half a unit of its last place, and it is exact only if the digits that are
dropped are zeros. Main statement: `negate_rounded`.
-/

namespace Slick.Decimal

/-- The rational number that a finite decimal stands for. -/
def value? : Decimal → Option ℚ
  | finite negative coefficient exponent =>
    some ((if negative then -(coefficient : ℚ) else coefficient) * 10 ^ exponent)
  | infinite _ | nan .. => none

/-- The decimal is the negative of `c · 10 ^ x`, rounded to the given number of digits. -/
structure RoundedNegative (precision c : Nat) (x : Int) (v : Decimal) : Prop where
  /-- The negative of a zero is a positive zero with the same exponent. -/
  zero : c = 0 → v = finite false 0 x
  /-- A coefficient within the precision is kept. -/
  short : c ≠ 0 → digitCount c ≤ precision → v = finite true c x
  /-- A coefficient with `k` digits too many goes to the nearest multiple of `10 ^ k`, a tie to an
  even one. It is stored with as many digits as the precision has. -/
  long : ∀ k, 0 < k → digitCount c = precision + k →
    ∃ coefficient exponent, ∃ q : Nat, v = finite true coefficient exponent ∧
      digitCount coefficient = precision ∧
      (coefficient : ℚ) * 10 ^ exponent = q * 10 ^ (x + k) ∧
      |(q : ℚ) * 10 ^ k - c| ≤ 10 ^ k / 2 ∧
      (|(q : ℚ) * 10 ^ k - c| = 10 ^ k / 2 → q % 2 = 0)
  /-- Nothing is lost exactly if no digit has to be dropped that is not zero. -/
  exact_iff : v.value? = some (-((c : ℚ) * 10 ^ x)) ↔
    digitCount c ≤ precision ∨ ∀ d ∈ (digits c).drop precision, d = '0'

private theorem cast_placeValue (k : Nat) : (placeValue k : ℚ) = 10 ^ k := by
  have hpow : placeValue k = 10 ^ k := rfl
  rw [hpow]
  push_cast
  rfl

/-- A run of digits denotes zero only if all of them are zeros. -/
theorem ofDigits_eq_zero_iff {run : List Char} (h : ∀ c ∈ run, c.isDigit = true) :
    ofDigits run = 0 ↔ ∀ c ∈ run, c = '0' := by
  induction run with
  | nil => simp [ofDigits]
  | cons c rest ih =>
    rw [List.forall_mem_cons] at h ⊢
    have hpos := placeValue_pos rest.length
    have hdigit : ofDigits [c] = 0 ↔ c = '0' := by
      rw [ofDigits_singleton]
      have hzero : '0'.toNat ≤ c.toNat := (Char.isDigit_iff_toNat.mp h.1).1
      constructor
      · intro hsub
        exact Char.toNat_inj.mp (by omega)
      · rintro rfl
        rfl
    rw [← List.singleton_append, ofDigits_append, Nat.add_eq_zero_iff, Nat.mul_eq_zero, hdigit,
      ih h.2, or_iff_left (Nat.ne_of_gt hpos)]

/-- The last `k` digits of a number are zeros exactly if it is a multiple of `10 ^ k`. -/
theorem placeValue_dvd_iff {n front k : Nat} (h : digitCount n = front + k) :
    placeValue k ∣ n ↔ ∀ d ∈ (digits n).drop front, d = '0' := by
  have hlength : ((digits n).drop front).length = k := by
    rw [List.length_drop, ← digitCount]
    omega
  have hdigits : ∀ d ∈ (digits n).drop front, d.isDigit = true :=
    fun d hd => isDigit_of_mem_digits (List.mem_of_mem_drop hd)
  have hsplit : n = ofDigits ((digits n).take front) * placeValue k +
      ofDigits ((digits n).drop front) := by
    rw [← hlength, ← ofDigits_append, List.take_append_drop, ofDigits_digits]
  have hlt := ofDigits_lt hdigits
  rw [hlength] at hlt
  rw [← ofDigits_eq_zero_iff hdigits, hsplit, Nat.dvd_add_right (Nat.dvd_mul_left _ _), ← hsplit]
  constructor
  · intro hdvd
    exact Nat.eq_zero_of_dvd_of_lt hdvd hlt
  · intro hzero
    rw [hzero]
    exact Nat.dvd_zero _

/-- A rounded quotient that is off by half a unit was a tie. -/
theorem tie_of_half {n k : Nat}
    (h : 2 * (roundHalfEven n k * placeValue k) = 2 * n + placeValue k ∨
      2 * n = 2 * (roundHalfEven n k * placeValue k) + placeValue k) :
    2 * (n % placeValue k) = placeValue k := by
  have hdiv := Nat.div_add_mod n (placeValue k)
  have hmod := Nat.mod_lt n (placeValue_pos k)
  rw [Nat.mul_comm] at hdiv
  simp only [roundHalfEven, nearestQuotient] at h
  split at h
  · rw [Nat.add_mul, Nat.one_mul] at h
    omega
  · omega

/-- Rounding is exact for multiples only. -/
theorem roundHalfEven_mul_eq_iff (n k : Nat) :
    roundHalfEven n k * placeValue k = n ↔ placeValue k ∣ n := by
  constructor
  · intro h
    exact Dvd.intro_left _ h
  · rintro ⟨q, rfl⟩
    rw [Nat.mul_comm (placeValue k) q, roundHalfEven, nearestQuotient_mul q (placeValue_pos k)]

/-- The rounded quotient is off by at most half a unit, and by half a unit only if it is even. -/
theorem roundHalfEven_near_rat (n k : Nat) :
    |(roundHalfEven n k : ℚ) * 10 ^ k - n| ≤ 10 ^ k / 2 ∧
      (|(roundHalfEven n k : ℚ) * 10 ^ k - n| = 10 ^ k / 2 → roundHalfEven n k % 2 = 0) := by
  obtain ⟨hupper, hlower⟩ := roundHalfEven_near n k
  rw [← cast_placeValue]
  have hupper' : 2 * ((roundHalfEven n k : ℚ) * placeValue k) ≤ 2 * n + placeValue k := by
    exact_mod_cast hupper
  have hlower' : 2 * (n : ℚ) ≤ 2 * ((roundHalfEven n k : ℚ) * placeValue k) + placeValue k := by
    exact_mod_cast hlower
  constructor
  · rw [abs_le]
    constructor <;> linarith
  · intro htie
    apply roundHalfEven_even_of_tie
    apply tie_of_half
    have hhalf : (0 : ℚ) ≤ placeValue k / 2 := by positivity
    rcases (abs_eq hhalf).mp htie with hover | hunder
    · left
      have hcast : 2 * ((roundHalfEven n k : ℚ) * placeValue k) = 2 * n + placeValue k := by
        linarith
      exact_mod_cast hcast
    · right
      have hcast : 2 * (n : ℚ) = 2 * ((roundHalfEven n k : ℚ) * placeValue k) + placeValue k := by
        linarith
      exact_mod_cast hcast

/-- What is stored of a rounded coefficient: the coefficient itself, or, behind a carry, a tenth of
it with the next exponent. Either way it has as many digits as the precision and the same value. -/
theorem exists_stored {precision c k : Nat} (hprecision : 0 < precision)
    (hdigits : digitCount c = precision + k) (place : Int) :
    ∃ coefficient exponent,
      (if precision < digitCount (roundHalfEven c k) then
        finite true (roundHalfEven c k / 10) (place + 1)
      else finite true (roundHalfEven c k) place) = finite true coefficient exponent ∧
      digitCount coefficient = precision ∧
      (coefficient : ℚ) * 10 ^ exponent = roundHalfEven c k * 10 ^ place := by
  have hkept := digitCount_le_roundHalfEven (n := c) (k := k) (by omega)
  split
  · next hcarry =>
    -- A carry into one more digit leaves a power of ten.
    have hbound : roundHalfEven c k ≤ placeValue precision :=
      roundHalfEven_le ((digitCount_le_iff (by omega)).mp (Nat.le_of_eq hdigits))
    have hten : placeValue precision = 10 * placeValue (precision - 1) := by
      rw [← placeValue_succ, Nat.sub_add_cancel hprecision]
    have hpower : roundHalfEven c k = 10 * placeValue (precision - 1) := by
      have := placeValue_le_of_lt_digitCount hprecision hcarry
      omega
    refine ⟨_, _, rfl, ?_, ?_⟩
    · have htenth : roundHalfEven c k / 10 = placeValue (precision - 1) := by omega
      rw [htenth]
      have hless : placeValue (precision - 1) < placeValue precision := by
        have := placeValue_pos (precision - 1)
        omega
      have hle := (digitCount_le_iff hprecision).mpr hless
      by_contra hne
      have hpos := digitCount_pos (placeValue (precision - 1))
      have hshort := (digitCount_le_iff (n := placeValue (precision - 1))
        (k := precision - 1) (by omega)).mp (by omega)
      omega
    · rw [hpower, Nat.mul_div_cancel_left _ (by decide), zpow_add_one₀ (by norm_num)]
      push_cast
      ring
  · next hfits => exact ⟨_, _, rfl, by omega, rfl⟩

/-- A coefficient with `k` digits too many is rounded at the `k`-th place. -/
theorem fit_of_digitCount_eq {ctx : Context} {negative : Bool} {c k : Nat} {x : Int} (hk : 0 < k)
    (hdigits : digitCount c = ctx.precision + k) (hne : c ≠ 0) (hleast : ctx.least ≤ x)
    (hgreatest : digitCount c + x ≤ ctx.maxExponent) :
    fit ctx negative c x =
      .ok (if ctx.precision < digitCount (roundHalfEven c k) then
        finite negative (roundHalfEven c k / 10) (x + k + 1)
      else finite negative (roundHalfEven c k) (x + k)) := by
  have hroom : ctx.greatest = ctx.maxExponent - ctx.precision + 1 := rfl
  have hplace : max ((digitCount c : Int) + x - ctx.precision) ctx.least = x + k := by omega
  have hshift : (x + k - x).toNat = k := by omega
  simp only [fit, if_neg hne]
  rw [if_neg (by omega), hplace, if_neg (by omega), hshift, shiftRight_eq]
  split
  · rw [if_neg (by omega)]
  · rfl

private theorem value?_negative (coefficient : Nat) (exponent : Int) :
    (finite true coefficient exponent).value? = some (-((coefficient : ℚ) * 10 ^ exponent)) := by
  simp [value?]

/-- The value of a coefficient that was rounded at the `k`-th place is the old one exactly if the
digits behind that place are zeros. -/
theorem rounded_exact_iff {precision c k : Nat} (hdigits : digitCount c = precision + k) (x : Int) :
    (roundHalfEven c k : ℚ) * 10 ^ (x + k) = c * 10 ^ x ↔
      ∀ d ∈ (digits c).drop precision, d = '0' := by
  have hten : (10 : ℚ) ^ x ≠ 0 := zpow_ne_zero _ (by norm_num)
  have hshift : (roundHalfEven c k : ℚ) * 10 ^ (x + k) =
      (roundHalfEven c k * placeValue k : Nat) * 10 ^ x := by
    rw [zpow_add₀ (by norm_num), zpow_natCast, Nat.cast_mul, cast_placeValue]
    ring
  rw [hshift, mul_left_inj' hten, Nat.cast_inj, roundHalfEven_mul_eq_iff,
    placeValue_dvd_iff hdigits]

/-- **The negative of a number is rounded correctly**, as long as its exponents are within the
limits of the context. -/
theorem negate_rounded {ctx : Context} (hctx : ctx.Sound) {c : Nat} {x : Int}
    (hleast : ctx.least ≤ x) (hgreatest : digitCount c + x ≤ ctx.maxExponent) :
    ∃ v, negate ctx (finite false c x) = .ok v ∧ RoundedNegative ctx.precision c x v := by
  have hprecision := hctx.precision_pos
  have hpos := digitCount_pos c
  by_cases hzero : c = 0
  · subst hzero
    have hone : digitCount 0 = 1 := rfl
    have hexponent : min (max x ctx.least) ctx.maxExponent = x := by omega
    refine ⟨finite false 0 x, ?_, fun _ => rfl, fun hne => absurd rfl hne, ?_, ?_⟩
    · simp [negate, fit, hexponent]
    · intro k hk hdigits
      omega
    · exact iff_of_true (by simp [value?]) (.inl hprecision)
  have hnegate : negate ctx (finite false c x) = fit ctx true c x := by simp [negate, hzero]
  rw [hnegate]
  by_cases hshort : digitCount c ≤ ctx.precision
  · have hroom : ctx.greatest = ctx.maxExponent - ctx.precision + 1 := rfl
    refine ⟨finite true c x, fit_of_digitCount_le hzero hshort hleast (by omega),
      fun h => absurd h hzero, fun _ _ => rfl, ?_, ?_⟩
    · intro k hk hdigits
      omega
    · exact iff_of_true (value?_negative c x) (.inl hshort)
  · obtain ⟨k, hdigits⟩ := Nat.exists_eq_add_of_le (Nat.le_of_not_le hshort)
    obtain ⟨coefficient, exponent, hstored, hcount, hvalue⟩ :=
      exists_stored hprecision hdigits (x + k)
    refine ⟨finite true coefficient exponent, ?_, fun h => absurd h hzero,
      fun _ h => absurd h hshort, ?_, ?_⟩
    · rw [← hstored]
      exact fit_of_digitCount_eq (by omega) hdigits hzero hleast hgreatest
    · intro k' _ hdigits'
      obtain rfl : k = k' := by omega
      obtain ⟨hnear, heven⟩ := roundHalfEven_near_rat c k
      exact ⟨coefficient, exponent, roundHalfEven c k, rfl, hcount, hvalue, hnear, heven⟩
    · rw [value?_negative, hvalue, Option.some_inj, neg_inj, rounded_exact_iff hdigits,
        or_iff_right hshort]

/-- A numeral denotes the number in front of its point and the fraction behind it. -/
theorem value?_ofNumeral (whole fraction : List Char) :
    (ofNumeral whole fraction).value? =
      some ((ofDigits whole : ℚ) + ofDigits fraction / 10 ^ fraction.length) := by
  have hten : (10 : ℚ) ^ fraction.length ≠ 0 := pow_ne_zero _ (by norm_num)
  rw [ofNumeral, ofDigits_append, value?, zpow_neg, zpow_natCast]
  simp only [Bool.false_eq_true, if_false, Option.some_inj]
  push_cast
  rw [cast_placeValue]
  field_simp

end Slick.Decimal
