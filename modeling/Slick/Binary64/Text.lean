import Slick.Binary64
import Slick.Decimal.Text

/-!
# Binary numbers as text

A decimal numeral stands for the nearest number of the format. Digits of every script count,
and blanks may surround the numeral; infinities and not-a-number have names.
-/

namespace Slick.Binary64

/-- The number that a text without a sign denotes. -/
def magnitudeOf? (text : List Char) : Option Binary64 :=
  if text = "inf".toList ∨ text = "infinity".toList then some (infinite false)
  else if text = "nan".toList then some nan
  else
    match Decimal.finiteOf? false text with
    | some (.finite _ coefficient exponent) => some (ofDecimal false coefficient exponent)
    | _ => none

/-- The number that a text denotes, if it denotes one. Letters count in either case. -/
def ofText? (text : List Char) : Option Binary64 :=
  let trimmed := Text.trim Text.isOpenBlank (Text.plainDigits text)
  let (negative, rest) := Decimal.takeSign (trimmed.map Char.toLower)
  (magnitudeOf? rest).map fun magnitude => if negative then magnitude.neg else magnitude

end Slick.Binary64
