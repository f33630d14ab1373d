/-!
# Nearest quotients

The quotient of two natural numbers as the nearest integer, where a tie goes to the even
neighbour. Main statements: the result is off by at most half, a tie gives an even result, and
an exact quotient stays as it is.
-/

namespace Slick

/-- The integer nearest to `n / d`, a tie to the even one. -/
def nearestQuotient (n d : Nat) : Nat :=
  let quotient := n / d
  let excess := 2 * (n % d)
  if d < excess ∨ (excess = d ∧ quotient % 2 = 1) then quotient + 1 else quotient

/-- The nearest quotient is off by at most half a unit. -/
theorem nearestQuotient_near {d : Nat} (n : Nat) (hd : 0 < d) :
    2 * (nearestQuotient n d * d) ≤ 2 * n + d ∧ 2 * n ≤ 2 * (nearestQuotient n d * d) + d := by
  have hdiv := Nat.div_add_mod n d
  have hmod := Nat.mod_lt n hd
  rw [Nat.mul_comm] at hdiv
  simp only [nearestQuotient]
  split
  · next h =>
    rw [Nat.add_mul]
    omega
  · next h => omega

/-- A tie goes to the even neighbour. -/
theorem nearestQuotient_even_of_tie {n d : Nat} (h : 2 * (n % d) = d) :
    nearestQuotient n d % 2 = 0 := by
  simp only [nearestQuotient, h, Nat.lt_irrefl, false_or, true_and]
  split <;> omega

/-- What is less than half is nearest to zero. -/
theorem nearestQuotient_eq_zero {n d : Nat} (h : 2 * n < d) : nearestQuotient n d = 0 := by
  have hq : n / d = 0 := Nat.div_eq_of_lt (by omega)
  have hr : n % d = n := Nat.mod_eq_of_lt (by omega)
  simp only [nearestQuotient, hq, hr]
  rw [if_neg (by omega)]

/-- An exact quotient stays as it is. -/
theorem nearestQuotient_mul {d : Nat} (q : Nat) (hd : 0 < d) :
    nearestQuotient (q * d) d = q := by
  simp only [nearestQuotient, Nat.mul_div_cancel _ hd, Nat.mul_mod_left, Nat.mul_zero]
  rw [if_neg (by omega)]

end Slick
