import Slick.Decimal.Text
import Slick.Proofs.Text.Runs

/-!
# The text of a decimal determines it

The text of a number is a run of digits, a fraction behind a point if there is one, and an exponent
if there is one. The digits in front of and behind the point make up the coefficient, and the
exponent together with the length of the fraction makes up the exponent of the number. So no two
finite decimals have the same text. Main statements: `magnitudeText_shape` and
`chars_injective`.
-/

namespace Slick.Decimal

/-- A fraction behind its point, or nothing. -/
def fractionText : List Char → List Char
  | [] => []
  | fraction => '.' :: fraction

/-- What stands behind the digits of a number of the given exponent: an exponent for the last
digit, or nothing. -/
def exponentPart (coefficient : Nat) (exponent : Int) (places : Nat) : List Char :=
  if needsExponent coefficient exponent then exponentText (exponent + places) else []

/-- The parts of the text of a number. -/
structure Shape (coefficient : Nat) (exponent : Int) (whole fraction : List Char) : Prop where
  whole_ne : whole ≠ []
  whole_digits : ∀ c ∈ whole, c.isDigit = true
  fraction_digits : ∀ c ∈ fraction, c.isDigit = true
  /-- The digits are those of the coefficient, up to zeros in front. -/
  value : ofDigits (whole ++ fraction) = coefficient
  /-- Without an exponent, the point alone says what the last digit is worth. -/
  places : needsExponent coefficient exponent = false → exponent + fraction.length = 0
  text : magnitudeText coefficient exponent =
    whole ++ (fractionText fraction ++ exponentPart coefficient exponent fraction.length)

/-- The digits of a number are decimal digits. -/
theorem isDigit_of_mem_digits {n : Nat} {c : Char} (h : c ∈ digits n) : c.isDigit = true :=
  Nat.isDigit_of_mem_toDigits (by decide) (by decide) h

/-- Every number has a digit. -/
theorem digits_ne_nil (n : Nat) : digits n ≠ [] :=
  List.ne_nil_of_length_pos (digitCount_pos n)

/-- Zeros in front of a run of digits do not count. -/
theorem ofDigits_zeros (zeros : Nat) (run : List Char) :
    ofDigits (List.replicate zeros '0' ++ run) = ofDigits run := by
  induction zeros with
  | zero => rfl
  | succ zeros ih =>
    rw [List.replicate_succ, List.cons_append, ofDigits, Nat.ofDigitChars_cons]
    exact ih

/-- A fraction with digits is written behind a point. -/
theorem fractionText_of_ne_nil {fraction : List Char} (h : fraction ≠ []) :
    fractionText fraction = '.' :: fraction := by
  cases fraction with
  | nil => exact absurd rfl h
  | cons => rfl

/-- A run of digits with the point behind some of them. -/
theorem pointed_split {run : List Char} {left : Int} (hleft : 0 < left) :
    pointed run left = run.take left.toNat ++ fractionText (run.drop left.toNat) := by
  unfold pointed
  rw [if_neg (by omega)]
  split
  · next hall =>
    rw [List.take_of_length_le hall, List.drop_of_length_le hall, fractionText, List.append_nil]
  · next hsome =>
    have hne : run.drop left.toNat ≠ [] := by
      rw [Ne, List.drop_eq_nil_iff]
      omega
    rw [fractionText_of_ne_nil hne]

/-- The parts of a text in which the point cuts the digits of the coefficient. -/
theorem Shape.of_cut {coefficient cut : Nat} {exponent : Int} (hcut : 0 < cut)
    (hplaces : needsExponent coefficient exponent = false →
      exponent + ((digits coefficient).drop cut).length = 0)
    (htext : magnitudeText coefficient exponent = (digits coefficient).take cut ++
      (fractionText ((digits coefficient).drop cut) ++
        exponentPart coefficient exponent ((digits coefficient).drop cut).length)) :
    Shape coefficient exponent ((digits coefficient).take cut) ((digits coefficient).drop cut) where
  whole_ne := by
    rw [Ne, List.take_eq_nil_iff, not_or]
    exact ⟨by omega, digits_ne_nil coefficient⟩
  whole_digits := fun _ hc => isDigit_of_mem_digits (List.mem_of_mem_take hc)
  fraction_digits := fun _ hc => isDigit_of_mem_digits (List.mem_of_mem_drop hc)
  value := by rw [List.take_append_drop, ofDigits_digits]
  places := hplaces
  text := htext

/-- The parts of a text with all digits behind the point, and zeros between. -/
theorem Shape.of_zeros {coefficient zeros : Nat} {exponent : Int}
    (hneeds : needsExponent coefficient exponent = false)
    (hzeros : exponent + (zeros + (digits coefficient).length) = 0)
    (htext : magnitudeText coefficient exponent =
      '0' :: '.' :: (List.replicate zeros '0' ++ digits coefficient)) :
    Shape coefficient exponent ['0'] (List.replicate zeros '0' ++ digits coefficient) where
  whole_ne := by simp
  whole_digits := by simp
  fraction_digits := by
    intro c hc
    rcases List.mem_append.mp hc with hc | hc
    · rw [List.eq_of_mem_replicate hc]
      rfl
    · exact isDigit_of_mem_digits hc
  value := by
    rw [← List.append_assoc, ← List.replicate_one, List.replicate_append_replicate, ofDigits_zeros,
      ofDigits_digits]
  places := by
    intro _
    rw [List.length_append, List.length_replicate]
    omega
  text := by
    have hne : List.replicate zeros '0' ++ digits coefficient ≠ [] :=
      List.append_ne_nil_of_right_ne_nil _ (digits_ne_nil coefficient)
    rw [htext, fractionText_of_ne_nil hne, exponentPart, if_neg (by simp [hneeds]),
      List.append_nil]
    rfl

/-- The text of a number has its parts. -/
theorem magnitudeText_shape (coefficient : Nat) (exponent : Int) :
    ∃ whole fraction, Shape coefficient exponent whole fraction := by
  have hlength : 0 < (digits coefficient).length := digitCount_pos coefficient
  by_cases hneeds : needsExponent coefficient exponent = true
  -- One digit in front of the point, and the exponent of the leading digit.
  · refine ⟨_, _, Shape.of_cut Nat.one_pos (fun hnone => by simp [hneeds] at hnone) ?_⟩
    have hplace : ((digits coefficient).length : Int) + exponent - 1 =
        exponent + ((digits coefficient).drop 1).length := by
      rw [List.length_drop]
      omega
    rw [magnitudeText, if_pos hneeds, pointed_split (by decide), exponentPart, if_pos hneeds,
      hplace, List.append_assoc]
    rfl
  · have hexponent : exponent ≤ 0 := by
      simp only [needsExponent, Bool.or_eq_true, decide_eq_true_eq, not_or] at hneeds
      omega
    have htext : magnitudeText coefficient exponent =
        pointed (digits coefficient) ((digits coefficient).length + exponent) := by
      rw [magnitudeText, if_neg hneeds]
    by_cases hleft : ((digits coefficient).length : Int) + exponent ≤ 0
    · rw [pointed, if_pos hleft] at htext
      exact ⟨_, _, Shape.of_zeros (by simpa using hneeds) (by omega) htext⟩
    · have hcut : 0 < (((digits coefficient).length : Int) + exponent).toNat := by omega
      rw [pointed_split (by omega)] at htext
      refine ⟨_, _, Shape.of_cut hcut (fun _ => ?_) (htext.trans ?_)⟩
      · rw [List.length_drop]
        omega
      · rw [exponentPart, if_neg hneeds, List.append_nil]

/-- An exponent is determined by its text. -/
theorem exponentText_injective {exponent exponent' : Int}
    (h : exponentText exponent = exponentText exponent') : exponent = exponent' := by
  simp only [exponentText, List.cons.injEq, true_and] at h
  obtain ⟨hsign, hdigits⟩ := h
  have habs := congrArg ofDigits hdigits
  rw [ofDigits_digits, ofDigits_digits] at habs
  by_cases hneg : exponent < 0 <;> by_cases hneg' : exponent' < 0 <;>
    simp only [hneg, hneg', if_true, if_false, Char.reduceEq] at hsign
  · omega
  · omega

private theorem head_exponentPart {coefficient places : Nat} {exponent : Int} :
    ∀ c ∈ (exponentPart coefficient exponent places).head?, c = 'E' := by
  intro c hc
  unfold exponentPart at hc
  split at hc
  · simpa [exponentText, eq_comm] using hc
  · simp at hc

/-- What stands behind the digits in front of the point does not start with a digit. -/
theorem head_behind_whole {fraction : List Char} {coefficient places : Nat} {exponent : Int} :
    ∀ c ∈ (fractionText fraction ++ exponentPart coefficient exponent places).head?,
      c.isDigit = false := by
  intro c hc
  cases fraction with
  | nil =>
    rw [head_exponentPart c hc]
    rfl
  | cons d fraction =>
    obtain rfl : '.' = c := by simpa [fractionText] using hc
    rfl

/-- A fraction ends where the exponent starts. -/
theorem fractionText_unique {fraction fraction' rest rest' : List Char}
    (hdigits : ∀ c ∈ fraction, c.isDigit = true) (hdigits' : ∀ c ∈ fraction', c.isDigit = true)
    (hrest : ∀ c ∈ rest.head?, c = 'E') (hrest' : ∀ c ∈ rest'.head?, c = 'E')
    (h : fractionText fraction ++ rest = fractionText fraction' ++ rest') :
    fraction = fraction' ∧ rest = rest' := by
  have hpoint : ∀ {rest : List Char} {text : List Char}, (∀ c ∈ rest.head?, c = 'E') →
      rest ≠ '.' :: text := by
    rintro rest text hhead rfl
    exact absurd (hhead '.' rfl) (by decide)
  cases fraction with
  | nil =>
    cases fraction' with
    | nil => exact ⟨rfl, h⟩
    | cons => exact absurd h (hpoint hrest)
  | cons =>
    cases fraction' with
    | nil => exact absurd h.symm (hpoint hrest')
    | cons =>
      refine Text.run_unique hdigits hdigits' (fun c hc => ?_) (fun c hc => ?_)
        (List.cons.inj h).2
      · rw [hrest c hc]
        rfl
      · rw [hrest' c hc]
        rfl

/-- What stands behind the fraction says what the last digit is worth. -/
theorem exponentPart_injective {coefficient coefficient' places : Nat} {exponent exponent' : Int}
    (hplaces : needsExponent coefficient exponent = false → exponent + places = 0)
    (hplaces' : needsExponent coefficient' exponent' = false → exponent' + places = 0)
    (h : exponentPart coefficient exponent places = exponentPart coefficient' exponent' places) :
    exponent = exponent' := by
  unfold exponentPart at h
  split at h
  · split at h
    · have := exponentText_injective h
      omega
    · cases h
  · next hnone =>
    split at h
    · cases h
    · next hnone' =>
      have := hplaces (by simpa using hnone)
      have := hplaces' (by simpa using hnone')
      omega

private theorem magnitudeText_injective {coefficient coefficient' : Nat} {exponent exponent' : Int}
    (h : magnitudeText coefficient exponent = magnitudeText coefficient' exponent') :
    coefficient = coefficient' ∧ exponent = exponent' := by
  obtain ⟨whole, fraction, hshape⟩ := magnitudeText_shape coefficient exponent
  obtain ⟨whole', fraction', hshape'⟩ := magnitudeText_shape coefficient' exponent'
  rw [hshape.text, hshape'.text] at h
  obtain ⟨rfl, hbehind⟩ := Text.run_unique hshape.whole_digits hshape'.whole_digits
    head_behind_whole head_behind_whole h
  obtain ⟨rfl, hpart⟩ := fractionText_unique hshape.fraction_digits hshape'.fraction_digits
    head_exponentPart head_exponentPart hbehind
  exact ⟨hshape.value.symm.trans hshape'.value,
    exponentPart_injective hshape.places hshape'.places hpart⟩

/-- A number without its sign starts with a digit. -/
theorem head_magnitudeText (coefficient : Nat) (exponent : Int) :
    ∃ c ∈ (magnitudeText coefficient exponent).head?, c.isDigit = true := by
  obtain ⟨whole, fraction, hshape⟩ := magnitudeText_shape coefficient exponent
  obtain ⟨c, more, rfl⟩ := List.exists_cons_of_ne_nil hshape.whole_ne
  exact ⟨c, by simp [hshape.text], hshape.whole_digits c (by simp)⟩

/-- **The text of a finite decimal determines it**: its sign, its coefficient and its exponent. -/
theorem chars_injective {negative negative' : Bool} {coefficient coefficient' : Nat}
    {exponent exponent' : Int}
    (h : chars (finite negative coefficient exponent) =
      chars (finite negative' coefficient' exponent')) :
    finite negative coefficient exponent = finite negative' coefficient' exponent' := by
  have hsign : ∀ {c : Nat} {x : Int} {text : List Char}, magnitudeText c x ≠ '-' :: text := by
    intro c x text hminus
    obtain ⟨d, hd, hdigit⟩ := head_magnitudeText c x
    obtain rfl : '-' = d := by simpa [hminus] using hd
    cases hdigit
  have hboth : negative = negative' ∧
      magnitudeText coefficient exponent = magnitudeText coefficient' exponent' := by
    cases negative <;> cases negative' <;> simp only [chars, signText, if_true, if_false,
      Bool.false_eq_true, List.nil_append, List.singleton_append, List.cons.injEq, true_and] at h
    · exact ⟨rfl, h⟩
    · exact absurd h hsign
    · exact absurd h.symm hsign
    · exact ⟨rfl, h⟩
  obtain ⟨rfl, htext⟩ := hboth
  obtain ⟨rfl, rfl⟩ := magnitudeText_injective htext
  rfl

end Slick.Decimal
