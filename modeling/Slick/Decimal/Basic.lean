/-!
# Decimal numbers

A finite decimal is a sign, a coefficient and a power of ten. Two decimals of equal value
may differ in their exponents, as `1` and `1.0` do, and keep that difference in their text.
Numerals of the language are read exactly, however long they are.
-/

namespace Slick

/-- A decimal number, an infinity or a quiet or signaling not-a-number with its payload. -/
inductive Decimal where
  /-- The number `±coefficient · 10 ^ exponent`. -/
  | finite (negative : Bool) (coefficient : Nat) (exponent : Int)
  | infinite (negative : Bool)
  | nan (negative signaling : Bool) (payload : Nat)
  deriving DecidableEq, Repr, Inhabited

namespace Decimal

/-- The decimal digits of a natural number, most significant first; zero has one digit. -/
abbrev digits (n : Nat) : List Char := Nat.toDigits 10 n

/-- How many decimal digits a natural number has. -/
def digitCount (n : Nat) : Nat := (digits n).length

/-- The number that a run of decimal digits denotes. -/
def ofDigits (run : List Char) : Nat := Nat.ofDigitChars 10 run 0

/-- What a unit of the `k`-th place is worth, counted from the last place: the `k`-th power of
ten. -/
def placeValue (k : Nat) : Nat := Nat.pow 10 k

/-- The exact value of a numeral with the given digits before and behind its point. -/
def ofNumeral (whole fraction : List Char) : Decimal :=
  finite false (ofDigits (whole ++ fraction)) (-fraction.length)

/-- A number is that of its own digits. -/
@[simp] theorem ofDigits_digits (n : Nat) : ofDigits (digits n) = n :=
  Nat.ofDigitChars_ten_toDigits

/-- Every number has a digit. -/
theorem digitCount_pos (n : Nat) : 0 < digitCount n :=
  Nat.length_toDigits_pos

/-- The value of a place is not zero. -/
theorem placeValue_pos (k : Nat) : 0 < placeValue k :=
  Nat.pow_pos (by decide)

/-- The next place counts ten times as much. -/
theorem placeValue_succ (k : Nat) : placeValue (k + 1) = 10 * placeValue k :=
  Nat.pow_succ'

/-- A number has at most `k` digits exactly if it is below the value of the `k`-th place. -/
theorem digitCount_le_iff {n k : Nat} (hk : 0 < k) : digitCount n ≤ k ↔ n < placeValue k :=
  Nat.length_toDigits_le_iff (by decide) hk

end Decimal

end Slick
