import Mathlib.Tactic.Common
import Slick.Decimal.Rounding

/-!
# Negative numbers and their numerals

A negative number is written as a minus sign in front of a numeral, and taking the negative
rounds to the context. Every number that arises in this way is the negative of one particular
numeral: its own digits, or, for the zero that is left of a number too small for the context, a
unit too small to be kept. A numeral has a negative as long as its digits keep the leading one in
the range of the context. Main statements: `negate_magnitude`, `exists_negate` and
`WithinLimits.exists_negate`.
-/

namespace Slick.Decimal

/-- Whether the number has a minus sign. -/
def isNegative : Decimal → Bool
  | finite negative _ _ | infinite negative | nan negative _ _ => negative

/-- The numeral behind the minus sign of a negative number. -/
def magnitude : Decimal → Decimal
  | finite _ 0 exponent => finite false 1 (exponent - 2)
  | finite _ coefficient exponent => finite false coefficient exponent
  | d => d

private theorem placeValue_add (j k : Nat) : placeValue (j + k) = placeValue j * placeValue k :=
  Nat.pow_add 10 j k

/-- A coefficient that is rounded to a place behind the precision does not outgrow the precision by
more than a carry. -/
theorem roundHalfEven_le {n k precision : Nat} (h : n < placeValue (precision + k)) :
    roundHalfEven n k ≤ placeValue precision := by
  have hnear := (roundHalfEven_near n k).1
  have hpos := placeValue_pos k
  by_contra hlarge
  have hmul : (placeValue precision + 1) * placeValue k ≤ roundHalfEven n k * placeValue k :=
    Nat.mul_le_mul_right _ (by omega)
  rw [Nat.add_mul, ← placeValue_add, Nat.one_mul] at hmul
  omega

/-- A coefficient with more digits than the precision does not vanish when it is rounded to the
precision. -/
theorem roundHalfEven_ne_zero {n k : Nat} (h : placeValue k ≤ n) : roundHalfEven n k ≠ 0 := by
  have hnear := (roundHalfEven_near n k).2
  have hpos := placeValue_pos k
  intro hzero
  rw [hzero, Nat.zero_mul] at hnear
  omega

/-- A context that has room for its own precision. -/
structure Context.Sound (ctx : Context) : Prop where
  precision_pos : 0 < ctx.precision
  least_le_greatest : ctx.least ≤ ctx.greatest

/-- The standard context keeps at least one digit, and its limits are in order. -/
theorem Context.standard_sound : Context.standard.Sound := by
  constructor <;> decide

/-- What a rounded result looks like. It fits the context, and if it vanished, it was rounded to the
least exponent. -/
theorem fit_cases {ctx : Context} (hctx : ctx.Sound) {negative : Bool} {coefficient : Nat}
    {exponent : Int} (hne : coefficient ≠ 0) {d : Decimal}
    (h : fit ctx negative coefficient exponent = .ok d) :
    d = finite negative coefficient exponent ∨ d = finite negative 0 ctx.least ∨
      ∃ c x, d = finite negative c x ∧ c ≠ 0 ∧ digitCount c ≤ ctx.precision ∧ ctx.least ≤ x ∧
        x ≤ ctx.greatest := by
  have hprecision := hctx.precision_pos
  have hroom := hctx.least_le_greatest
  simp only [fit, if_neg hne] at h
  split at h
  · cases h
  · next hsmall =>
    split at h
    · cases h
      exact .inl rfl
    · next hplace =>
      generalize hk : (max (digitCount coefficient + exponent - ctx.precision) ctx.least -
        exponent).toNat = k at h
      have hdigits : digitCount coefficient ≤ ctx.precision + k := by omega
      have hbound : shiftRight coefficient k ≤ placeValue ctx.precision := by
        rw [shiftRight_eq]
        exact roundHalfEven_le ((digitCount_le_iff (by omega)).mp hdigits)
      split at h
      · next hcarry =>
        split at h
        · cases h
        · next hlarge =>
          cases h
          refine .inr (.inr ⟨_, _, rfl, ?_, ?_, by omega, by omega⟩)
          · intro hzero
            have hdigit : shiftRight coefficient k < placeValue 1 := by
              have hten : placeValue 1 = 10 := rfl
              omega
            have := (digitCount_le_iff (by decide)).mpr hdigit
            omega
          · have hten : placeValue ctx.precision = 10 * placeValue (ctx.precision - 1) := by
              rw [← placeValue_succ, Nat.sub_add_cancel hprecision]
            have hpos := placeValue_pos (ctx.precision - 1)
            exact (digitCount_le_iff hprecision).mpr (by omega)
      · next hcarry =>
        cases h
        by_cases hzero : shiftRight coefficient k = 0
        · refine .inr (.inl ?_)
          -- A digit at the place of the precision would have been kept.
          have hleast : max (digitCount coefficient + exponent - ctx.precision) ctx.least =
              ctx.least := by
            by_contra hhigh
            have hlong : ¬digitCount coefficient ≤ k := by omega
            rw [shiftRight_eq] at hzero
            by_cases hk0 : k = 0
            · omega
            · rw [digitCount_le_iff (by omega)] at hlong
              exact roundHalfEven_ne_zero (by omega) hzero
          rw [hzero, hleast]
        · exact .inr (.inr ⟨_, _, rfl, hzero, by omega, by omega, by omega⟩)

/-- Every negative number that a minus sign makes of a numeral is the negative of its own
magnitude. -/
theorem negate_magnitude {coefficient : Nat} {exponent : Int} {d : Decimal}
    (h : negate .standard (finite false coefficient exponent) = .ok d)
    (hnegative : d.isNegative = true) : negate .standard d.magnitude = .ok d := by
  by_cases hne : coefficient = 0
  · simp only [negate, hne, fit, if_pos, ne_eq, not_true, decide_false, Bool.false_and] at h
    cases h
    cases hnegative
  · simp only [negate, ne_eq, hne, not_false_eq_true, decide_true, Bool.not_false,
      Bool.and_true] at h
    rcases fit_cases Context.standard_sound hne h with rfl | rfl | ⟨c, x, rfl, hc, hdigits, hx, hx'⟩
    · obtain ⟨c, rfl⟩ := Nat.exists_eq_succ_of_ne_zero hne
      simpa [magnitude, negate] using h
    · rfl
    · have hexact : fit .standard true c x = .ok (finite true c x) :=
        fit_of_digitCount_le hc hdigits hx (by omega)
      obtain ⟨c, rfl⟩ := Nat.exists_eq_succ_of_ne_zero hc
      simpa [magnitude, negate] using hexact

/-- A run of digits in two parts: the first counts as often as the places of the second say. -/
theorem ofDigits_append (first second : List Char) :
    ofDigits (first ++ second) = ofDigits first * placeValue second.length + ofDigits second := by
  rw [ofDigits, Nat.ofDigitChars_append, Nat.ofDigitChars_eq_ofDigitChars_zero, Nat.mul_comm]
  rfl

/-- A digit alone counts as much as it says. -/
theorem ofDigits_singleton (c : Char) : ofDigits [c] = c.toNat - '0'.toNat := by
  rw [ofDigits, Nat.ofDigitChars_cons, Nat.ofDigitChars_nil, Nat.mul_zero, Nat.zero_add]

/-- A run of digits denotes a number with no more digits than the run. -/
theorem ofDigits_lt {run : List Char} (h : ∀ c ∈ run, c.isDigit = true) :
    ofDigits run < placeValue run.length := by
  induction run with
  | nil => decide
  | cons c rest ih =>
    rw [List.forall_mem_cons] at h
    have hdigit : c.toNat - '0'.toNat ≤ 9 := by
      have hnine : c.toNat ≤ '9'.toNat := (Char.isDigit_iff_toNat.mp h.1).2
      have hspan : '9'.toNat = '0'.toNat + 9 := rfl
      omega
    have hvalue : ofDigits (c :: rest) =
        (c.toNat - '0'.toNat) * placeValue rest.length + ofDigits rest := by
      rw [← List.singleton_append, ofDigits_append, ofDigits_singleton]
    calc ofDigits (c :: rest)
      _ = (c.toNat - '0'.toNat) * placeValue rest.length + ofDigits rest := hvalue
      _ < 9 * placeValue rest.length + placeValue rest.length :=
        Nat.add_lt_add_of_le_of_lt (Nat.mul_le_mul_right _ hdigit) (ih h.2)
      _ = placeValue (rest.length + 1) := by rw [placeValue_succ]; omega

/-- A number whose leading digit is in the range of the context is delivered, also where rounding
carries into one more digit. -/
theorem exists_fit {ctx : Context} (hroom : ctx.least < ctx.greatest) (negative : Bool)
    {coefficient : Nat} {exponent : Int}
    (h : digitCount coefficient + exponent ≤ ctx.maxExponent) :
    ∃ d, fit ctx negative coefficient exponent = .ok d := by
  have hgreatest : ctx.greatest = ctx.maxExponent - ctx.precision + 1 := rfl
  simp only [fit]
  split
  · exact ⟨_, rfl⟩
  rw [if_neg (by omega)]
  split
  · exact ⟨_, rfl⟩
  split
  · rw [if_neg (by omega)]
    exact ⟨_, rfl⟩
  · exact ⟨_, rfl⟩

/-- A numeral of less than a million digits has a negative. -/
theorem exists_negate {whole fraction : List Char} (hwhole : whole ≠ [])
    (hdigits : ∀ c ∈ whole ++ fraction, c.isDigit = true)
    (hlength : (whole ++ fraction).length ≤ 999999) :
    ∃ d, negate .standard (ofNumeral whole fraction) = .ok d := by
  have hpos : 0 < (whole ++ fraction).length :=
    List.length_pos_iff.mpr (List.append_ne_nil_of_left_ne_nil hwhole fraction)
  have hcount : digitCount (ofDigits (whole ++ fraction)) ≤ (whole ++ fraction).length :=
    (digitCount_le_iff hpos).mpr (ofDigits_lt hdigits)
  refine exists_fit (by decide) _ ?_
  have hmax : Context.standard.maxExponent = 999999 := rfl
  omega

/-- The power of ten of the leading digit of a number that is rounded to the given number of
digits. A carry into one more digit counts. -/
def roundedLead (precision coefficient : Nat) (exponent : Int) : Int :=
  let excess := digitCount coefficient - precision
  digitCount (roundHalfEven coefficient excess) + excess + exponent - 1

/-- The number is finite, and once it is rounded to the precision of the context, its leading digit
is within the limits that the context sets to exponents. Numbers that are too small are no trouble,
for they are rounded to zero. -/
def WithinLimits (ctx : Context) : Decimal → Prop
  | finite _ coefficient exponent =>
    coefficient = 0 ∨ roundedLead ctx.precision coefficient exponent ≤ ctx.maxExponent
  | infinite _ | nan .. => False

/-- A number with more digits than a place reaches the value of the place. -/
theorem placeValue_le_of_lt_digitCount {n k : Nat} (hk : 0 < k) (h : k < digitCount n) :
    placeValue k ≤ n := by
  by_contra hsmall
  have := (digitCount_le_iff hk).mpr (Nat.lt_of_not_le hsmall)
  omega

/-- Rounding away the last digits leaves at least as many digits as are in front of them. -/
theorem digitCount_le_roundHalfEven {n k : Nat} (hk : k < digitCount n) :
    digitCount n ≤ digitCount (roundHalfEven n k) + k := by
  have hnear := (roundHalfEven_near n k).2
  have hpos := placeValue_pos k
  by_contra hfew
  have hcount := digitCount_pos (roundHalfEven n k)
  -- The rounded number is so short that the next one, too, stays below the leading digit.
  have hshort : roundHalfEven n k < placeValue (digitCount n - 1 - k) :=
    (digitCount_le_iff (by omega)).mp (by omega)
  have hlong : placeValue (digitCount n - 1) ≤ n :=
    placeValue_le_of_lt_digitCount (by omega) (by omega)
  have hmul : (roundHalfEven n k + 1) * placeValue k ≤
      placeValue (digitCount n - 1 - k) * placeValue k := Nat.mul_le_mul_right _ hshort
  rw [Nat.add_mul, Nat.one_mul, ← placeValue_add, Nat.sub_add_cancel (by omega)] at hmul
  omega

/-- A number within the limits of the context has a negative. -/
theorem WithinLimits.exists_negate {ctx : Context} (hctx : ctx.Sound)
    (hroom : ctx.least < ctx.greatest) {d : Decimal} (h : d.WithinLimits ctx) :
    ∃ negative, negate ctx d = .ok negative := by
  cases d with
  | infinite | nan => exact h.elim
  | finite negative coefficient exponent =>
    have hprecision := hctx.precision_pos
    have hgreatest : ctx.greatest = ctx.maxExponent - ctx.precision + 1 := rfl
    simp only [negate, fit]
    split
    · exact ⟨_, rfl⟩
    next hne =>
    have hlead := h.resolve_left hne
    have hpos := digitCount_pos coefficient
    have hkept := digitCount_le_roundHalfEven (n := coefficient)
      (k := digitCount coefficient - ctx.precision) (by omega)
    simp only [roundedLead] at hlead
    rw [if_neg (by omega)]
    split
    · exact ⟨_, rfl⟩
    next hplace =>
    split
    · next hcarry =>
      rw [if_neg ?_]
      · exact ⟨_, rfl⟩
      · -- Near the least exponent there is room; elsewhere the carry has been counted.
        rcases Int.le_total (digitCount coefficient + exponent - ctx.precision) ctx.least with
          hnear | hfar
        · omega
        · have hexcess : (max (digitCount coefficient + exponent - ctx.precision) ctx.least -
              exponent).toNat = digitCount coefficient - ctx.precision := by omega
          rw [hexcess, shiftRight_eq] at hcarry
          omega
    · exact ⟨_, rfl⟩

end Slick.Decimal
