import Slick.Decimal.Basic
import Slick.Text.Blank
import Slick.Text.Digits

/-!
# Decimals as text

A decimal is written with all its digits, so that its text determines it. The point is
placed positionally unless the exponent is positive or more than five zeros would follow
the point before the first digit; then one digit stands before the point and the power
of ten is written behind an `E`. Reading takes every form that writing produces, and
more: a point without digits on one side, a plus sign, digits of any script, underscores,
surrounding blanks. A numeral whose exponent is out of all bounds is not read.
-/

namespace Slick.Decimal

/-- An exponent behind the letter `E`, always with its sign. -/
def exponentText (exponent : Int) : List Char :=
  'E' :: (if exponent < 0 then '-' else '+') :: digits exponent.natAbs

/-- Digits with a point behind the first `left` of them; zeros fill the gap when the point
stands before all of them, and a point with no digit behind it is left out. -/
def pointed (run : List Char) (left : Int) : List Char :=
  if left ≤ 0 then '0' :: '.' :: (List.replicate (-left).toNat '0' ++ run)
  else if run.length ≤ left.toNat then run
  else run.take left.toNat ++ '.' :: run.drop left.toNat

/-- Whether the text of a number has an exponent: its own exponent is positive, or its leading
digit stands more than six places behind the point. -/
def needsExponent (coefficient : Nat) (exponent : Int) : Bool :=
  0 < exponent || digitCount coefficient + exponent - 1 < -6

/-- The text of a coefficient with a power of ten. -/
def magnitudeText (coefficient : Nat) (exponent : Int) : List Char :=
  let run := digits coefficient
  let left := run.length + exponent
  if needsExponent coefficient exponent then pointed run 1 ++ exponentText (left - 1)
  else pointed run left

/-- The sign in front of a negative number. -/
def signText (negative : Bool) : List Char :=
  if negative then ['-'] else []

/-- A decimal as characters. -/
def chars : Decimal → List Char
  | finite negative coefficient exponent => signText negative ++ magnitudeText coefficient exponent
  | infinite negative => signText negative ++ "Infinity".toList
  | nan negative signaling payload =>
    signText negative ++ (if signaling then ['s'] else []) ++ "NaN".toList ++
      (if payload = 0 then [] else digits payload)

/-- A decimal as text. -/
def toText (d : Decimal) : String := String.ofList d.chars

instance : ToString Decimal := ⟨toText⟩

/-- A sign in front of a text, and what follows it. -/
def takeSign : List Char → Bool × List Char
  | '-' :: rest => (true, rest)
  | '+' :: rest => (false, rest)
  | rest => (false, rest)

/-- An optional exponent that ends the text. -/
def exponentOf? : List Char → Option Int
  | [] => some 0
  | 'e' :: rest =>
    let (negative, run) := takeSign rest
    if run ≠ [] ∧ run.all Char.isDigit then
      some (if negative then -(ofDigits run : Int) else ofDigits run)
    else none
  | _ => none

/-- The payload of a not-a-number that ends the text. -/
def payloadOf? (run : List Char) : Option Nat :=
  if run.all Char.isDigit then some (ofDigits run) else none

/-- Digits with an optional point and an optional exponent. -/
def finiteOf? (negative : Bool) (text : List Char) : Option Decimal :=
  let whole := text.takeWhile Char.isDigit
  let behind := text.dropWhile Char.isDigit
  let (fraction, rest) :=
    match behind with
    | '.' :: more => (more.takeWhile Char.isDigit, more.dropWhile Char.isDigit)
    | _ => ([], behind)
  if whole = [] ∧ fraction = [] then none
  else (exponentOf? rest).map fun e =>
    finite negative (ofDigits (whole ++ fraction)) (e - fraction.length)

/-- The greatest power of ten that a leading digit can have. -/
def greatestExponent : Int := 999999999999999999

/-- The least power of ten that a last digit can have. -/
def leastExponent : Int := -1999999999999999997

/-- Whether a decimal lies within the bounds of exponents. -/
def isBounded : Decimal → Bool
  | finite _ coefficient exponent =>
    leastExponent ≤ exponent && digitCount coefficient + exponent - 1 ≤ greatestExponent
  | _ => true

/-- The decimal that a text denotes, if it denotes one. Letters count in either case. -/
def ofText? (text : String) : Option Decimal :=
  let trimmed := Text.plainDigits (Text.trim Text.isBlank text.toList)
  let (negative, rest) := takeSign ((trimmed.filter (· ≠ '_')).map Char.toLower)
  if rest = "inf".toList ∨ rest = "infinity".toList then some (infinite negative)
  else
    match rest with
    | 's' :: 'n' :: 'a' :: 'n' :: run => (payloadOf? run).map (nan negative true)
    | 'n' :: 'a' :: 'n' :: run => (payloadOf? run).map (nan negative false)
    | _ => (finiteOf? negative rest).filter isBounded

end Slick.Decimal
