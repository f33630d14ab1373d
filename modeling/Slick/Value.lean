import Slick.Decimal.Rounding
import Slick.Decimal.Text
import Slick.Dictionary
import Slick.TextLiteral

/-!
# Values

What a literal or a token stands for, and how values are shown: decimals with all their
digits, text as it is written in source, lists and records of values item by item.
-/

namespace Slick

/-- A literal value. -/
inductive Value where
  /-- No value at all, as for a token that is only a mark. -/
  | nothing
  | bool (b : Bool)
  | decimal (d : Decimal)
  | text (s : String)
  | int (n : Int)
  | list (items : List Value)
  | record (fields : List (String × Value))
  deriving Repr, Inhabited

namespace Value

/-- A truth value as it is written. -/
def boolText (b : Bool) : String := if b then "True" else "False"

/-- A text as it is written in source. -/
def quotedText (s : String) : String := String.ofList (TextLiteral.encode s.toList)

mutual

/-- A value as text. -/
def toText : Value → String
  | nothing => "None"
  | bool b => boolText b
  | decimal d => d.toText
  | text s => quotedText s
  | int n => toString n
  | list items => "[" ++ ", ".intercalate (itemTexts items) ++ "]"
  | record fields => "\x7b " ++ ", ".intercalate (fieldTexts fields) ++ " \x7d"

/-- The texts of list items. -/
def itemTexts : List Value → List String
  | [] => []
  | v :: rest => v.toText :: itemTexts rest

/-- The texts of record fields, each with its key. -/
def fieldTexts : List (String × Value) → List String
  | [] => []
  | (key, v) :: rest => (key ++ " : " ++ v.toText) :: fieldTexts rest

end

/-- Why a value has no negative. -/
inductive NegationFault where
  /-- The value is not a number. -/
  | notNumeric
  | arithmetic (fault : Decimal.Fault)
  deriving DecidableEq, Repr

/-- The negative of a value. Decimals are rounded to the standard context, and a truth value
counts as zero or one. -/
def negate : Value → Except NegationFault Value
  | decimal d =>
    match d.negate .standard with
    | .ok negative => .ok (decimal negative)
    | .error fault => .error (.arithmetic fault)
  | int n => .ok (int (-n))
  | bool b => .ok (int (if b then -1 else 0))
  | _ => .error .notNumeric

/-- Whether a decimal denotes the given integer. -/
def isInteger (n : Int) : Decimal → Bool
  | .finite negative coefficient exponent =>
    let signed : Int := if negative then -coefficient else coefficient
    if 0 ≤ exponent then
      coefficient = 0 ∧ n = 0 ∨
        exponent ≤ n.natAbs ∧ signed * Decimal.placeValue exponent.toNat = n
    else
      coefficient = 0 ∧ n = 0 ∨
        -exponent ≤ Decimal.digitCount coefficient ∧
          signed = n * Decimal.placeValue (-exponent).toNat
  | _ => false

end Value

/-- A condition on the value of a token. -/
inductive Wanted where
  | any
  | text (s : String)
  | bool (b : Bool)
  deriving DecidableEq, Repr

namespace Wanted

/-- Whether a value meets the condition. A truth value equals the numbers zero and one. -/
def accepts : Wanted → Value → Bool
  | any, _ => true
  | text s, .text s' => s == s'
  | bool b, .bool b' => b == b'
  | bool b, .int n => n == (if b then 1 else 0)
  | bool b, .decimal d => Value.isInteger (if b then 1 else 0) d
  | _, _ => false

end Wanted

end Slick
