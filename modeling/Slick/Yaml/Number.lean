import Slick.Binary64.Text
import Slick.Integer
import Slick.Yaml.Cursor
import Slick.Yaml.Pieces

/-!
# Numbers in YAML

What scalars of the two number types denote. Underscores do not count, and one sign is taken off
before the spelling is looked at. Colons separate places of base sixty. An integer with a leading
zero is octal, binary or hexadecimal; other numbers are those of double precision.
-/

namespace Slick.Yaml

/-- Takes one sign off, and tells whether it was a minus. -/
def takeSign (text : List Char) : Except Error (Bool × List Char) :=
  match text with
  | [] => .error .emptyNumber
  | '-' :: rest => .ok (true, rest)
  | '+' :: rest => .ok (false, rest)
  | rest => .ok (false, rest)

/-- The integer that a text spells in a base. -/
def integerIn (base : Nat) (text : List Char) : Except Error Int :=
  match Integer.ofText? base text with
  | some n => .ok n
  | none => .error .outOfRange

/-- The integer of a text without a sign. -/
def unsignedInteger (text : List Char) : Except Error Int :=
  match text with
  | [] => .error .emptyNumber
  | ['0'] => .ok 0
  | '0' :: 'b' :: digits => integerIn 2 digits
  | '0' :: 'x' :: digits => integerIn 16 digits
  | '0' :: digits => integerIn 8 ('0' :: digits)
  | digits =>
    if digits.contains ':' then do
      let places ← (split ':' digits).mapM (integerIn 10)
      return places.foldl (fun number place => 60 * number + place) 0
    else integerIn 10 digits

/-- The integer that a scalar denotes. -/
def integerOf (text : List Char) : Except Error Int := do
  let (negative, digits) ← takeSign (text.filter (· ≠ '_'))
  let n ← unsignedInteger digits
  return if negative then -n else n

/-- A number that is not an integer. There is one not-a-number with a name of its own, and every
other one is different from all. -/
inductive Real where
  | number (value : Binary64)
  | namedNaN
  deriving DecidableEq, Repr

/-- The binary number that a text spells. -/
def binaryOf (text : List Char) : Except Error Binary64 :=
  match Binary64.ofText? text with
  | some number => .ok number
  | none => .error .outOfRange

/-- The sum of places of base sixty, the last place first, where `weight` is what it counts. -/
def sumPlaces (sum : Binary64) (weight : Nat) : List Binary64 → Except Error Binary64
  | [] => .ok sum
  | place :: more =>
    match Binary64.ofInt weight with
    | .finite units => sumPlaces (sum.add (place.mul (.finite units))) (60 * weight) more
    | _ => .error .tooLarge

/-- The number of a text without a sign. -/
def unsignedReal (text : List Char) : Except Error Real :=
  if text = ".inf".toList then .ok (.number (.infinite false))
  else if text = ".nan".toList then .ok .namedNaN
  else if text.contains ':' then do
    let places ← (split ':' text).mapM binaryOf
    return .number (← sumPlaces (.finite 0) 1 places.reverse)
  else do return .number (← binaryOf text)

/-- The number that a scalar denotes. -/
def realOf (text : List Char) : Except Error Real := do
  let (negative, digits) ← takeSign ((text.filter (· ≠ '_')).map Char.toLower)
  match ← unsignedReal digits with
  | .namedNaN => return .namedNaN
  | .number value => return .number (if negative then value.neg else value)

end Slick.Yaml
