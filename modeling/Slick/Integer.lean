import Slick.Text.Blank
import Slick.Text.Digits

/-!
# Integers as text

An integer is an optional sign and digits of a base, with blanks around it. Decimal digits of
every script count, single underscores may stand between digits, and the letter that names a
base may stand behind a leading zero. A decimal integer has at most 4300 digits, because its
value takes more than linear time.
-/

namespace Slick.Integer

/-- The greatest number of digits of a decimal integer. -/
def mostDigits : Nat := 4300

/-- The value of a digit in a base. Letters in either case follow the nine. -/
def digit? (base : Nat) (c : Char) : Option Nat :=
  let lower := c.toLower
  let value :=
    if c.isDigit then c.toNat - '0'.toNat
    else if 'a' ≤ lower ∧ lower ≤ 'z' then lower.toNat - 'a'.toNat + 10
    else base
  if value < base then some value else none

/-- The number that some digits spell. -/
def ofDigits? (base : Nat) (digits : List Char) : Option Nat :=
  digits.foldl (fun number c => do return base * (← number) + (← digit? base c)) (some 0)

/-- Whether every underscore stands alone between two other characters. -/
def hasSingleUnderscores (text : List Char) : Bool :=
  text.head? ≠ some '_' && text.getLast? ≠ some '_' &&
    (text.zip text.tail).all fun (a, b) => !(a = '_' && b = '_')

/-- The number that digits with underscores spell. -/
def ofRun? (base : Nat) (text : List Char) : Option Nat :=
  let digits := text.filter (· ≠ '_')
  if digits = [] ∨ !hasSingleUnderscores text ∨ (base = 10 ∧ mostDigits < digits.length) then none
  else ofDigits? base digits

/-- The letter that names a base behind a leading zero. -/
def baseLetter? (base : Nat) : Option Char :=
  if base = 2 then some 'b'
  else if base = 8 then some 'o'
  else if base = 16 then some 'x'
  else none

/-- Digits without the name of their base. One underscore may stand behind the name. -/
def withoutBase (base : Nat) (text : List Char) : List Char :=
  match text with
  | '0' :: letter :: rest =>
    if some letter.toLower = baseLetter? base then
      match rest with
      | '_' :: run => run
      | run => run
    else text
  | _ => text

/-- The integer that a text spells in a base. -/
def ofText? (base : Nat) (text : List Char) : Option Int :=
  match Text.trim Text.isOpenBlank (Text.plainDigits text) with
  | '-' :: rest => (ofRun? base (withoutBase base rest)).map fun n => -n
  | '+' :: rest => (ofRun? base (withoutBase base rest)).map fun n => n
  | rest => (ofRun? base (withoutBase base rest)).map fun n => n

end Slick.Integer
