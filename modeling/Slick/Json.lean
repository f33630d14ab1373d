import Slick.Binary64.Text
import Slick.Integer
import Slick.Text.CodePoints

/-!
# JSON texts

A JSON text is read from the front, and the first fault refuses it. Each reader yields what it
has read with the rest of the text. Beyond the standard the
names `NaN`, `Infinity` and `-Infinity` are numbers. Of several entries of an object under one
key the last stays. Texts are code points, because an escape can name half of a surrogate
pair.
-/

namespace Slick

/-- A JSON value. -/
inductive Json where
  | null
  | bool (b : Bool)
  | integer (value : Int)
  /-- A number with a fraction or an exponent, or one that only has a name. -/
  | real (value : Binary64)
  | string (points : Text.CodePoints)
  | list (items : List Json)
  | object (entries : List (Text.CodePoints × Json))
  deriving Inhabited

namespace Json

/-- Why a text is not read. -/
inductive Error where
  /-- It does not follow the grammar. -/
  | malformed
  /-- An integer has more digits than are taken. -/
  | tooLong
  deriving DecidableEq, Repr

/-- A character that may stand between the parts of a text. -/
def isSpace (c : Char) : Bool := c = ' ' || c = '\t' || c = '\n' || c = '\r'

/-- A text without the space in front of it. -/
def skipSpace (text : List Char) : List Char := text.dropWhile isSpace

/-- The character that an escape with the given letter stands for. -/
def escape? : Char → Option Char
  | '"' => some '"'
  | '\\' => some '\\'
  | '/' => some '/'
  | 'b' => some (Char.ofNat 0x08)
  | 'f' => some (Char.ofNat 0x0C)
  | 'n' => some '\n'
  | 'r' => some '\r'
  | 't' => some '\t'
  | _ => none

/-- The number that the first four characters spell in base sixteen. -/
def unit? (text : List Char) : Option (Nat × List Char) :=
  if text.length < 4 then none
  else (Integer.ofDigits? 16 (text.take 4)).map fun unit => (unit, text.drop 4)

/-- The second half of a surrogate pair, written as an escape of its own. -/
def lowHalf? : List Char → Option (Nat × List Char)
  | '\\' :: 'u' :: rest => (unit? rest).filter fun (unit, _) => 0xDC00 ≤ unit && unit ≤ 0xDFFF
  | _ => none

/-- The code point that an escape by number stands for. Both halves of a surrogate pair make up
one code point. -/
def escapedPoint? (text : List Char) : Option (Nat × List Char) :=
  (unit? text).map fun (unit, rest) =>
    if 0xD800 ≤ unit ∧ unit ≤ 0xDBFF then
      match lowHalf? rest with
      | some (low, after) => (0x10000 + (unit - 0xD800) * 0x400 + (low - 0xDC00), after)
      | none => (unit, rest)
    else (unit, rest)

/-- The rest of a string behind the code points that were read, which stand in reverse. -/
def quotedFrom : (fuel : Nat) → Text.CodePoints → List Char →
    Except Error (Text.CodePoints × List Char)
  | 0, _, _ => .error .malformed
  | fuel + 1, before, text =>
    match text with
    | [] => .error .malformed
    | '"' :: rest => .ok (before.reverse, rest)
    | '\\' :: 'u' :: rest =>
      match escapedPoint? rest with
      | some (point, rest) => quotedFrom fuel (point :: before) rest
      | none => .error .malformed
    | '\\' :: letter :: rest =>
      match escape? letter with
      | some c => quotedFrom fuel (c.toNat :: before) rest
      | none => .error .malformed
    | c :: rest =>
      if c.toNat < 0x20 then .error .malformed else quotedFrom fuel (c.toNat :: before) rest

/-- A string from behind its opening quote. -/
def quoted (text : List Char) : Except Error (Text.CodePoints × List Char) :=
  quotedFrom (text.length + 1) [] text

/-- The digits before the point of a number. No further digit follows a leading zero. -/
def wholeOf : List Char → List Char
  | '0' :: _ => ['0']
  | text => text.takeWhile Char.isDigit

/-- A point with digits behind it. -/
def fractionOf : List Char → List Char
  | '.' :: rest =>
    match rest.takeWhile Char.isDigit with
    | [] => []
    | digits => '.' :: digits
  | _ => []

/-- The letter of an exponent with its sign and digits. -/
def exponentOf : List Char → List Char
  | [] => []
  | letter :: rest =>
    let sign := rest.takeWhile fun c => c = '+' || c = '-'
    let digits := (rest.drop sign.length).takeWhile Char.isDigit
    if (letter = 'e' ∨ letter = 'E') ∧ sign.length ≤ 1 ∧ digits ≠ [] then
      letter :: (sign ++ digits)
    else []

/-- A number without its sign. -/
def magnitude (negative : Bool) (text : List Char) : Except Error (Json × List Char) :=
  let whole := wholeOf text
  let fraction := fractionOf (text.drop whole.length)
  let exponent := exponentOf (text.drop (whole.length + fraction.length))
  let rest := text.drop (whole.length + fraction.length + exponent.length)
  if whole = [] then .error .malformed
  else if fraction = [] ∧ exponent = [] then
    match Integer.ofRun? 10 whole with
    | some n => .ok (integer (if negative then -n else n), rest)
    | none => .error .tooLong
  else
    match Binary64.ofText? (whole ++ fraction ++ exponent) with
    | some value => .ok (real (if negative then value.neg else value), rest)
    | none => .error .malformed

/-- The values that have names. -/
def names : List (List Char × Json) :=
  [("null".toList, null), ("true".toList, bool true), ("false".toList, bool false),
    ("NaN".toList, real .nan), ("Infinity".toList, real (.infinite false)),
    ("-Infinity".toList, real (.infinite true))]

/-- A name or a number. -/
def word (text : List Char) : Except Error (Json × List Char) :=
  match names.find? fun (name, _) => name.isPrefixOf text with
  | some (name, value) => .ok (value, text.drop name.length)
  | none =>
    match text with
    | '-' :: rest => magnitude true rest
    | _ => magnitude false text

/-- The last entry under each key. -/
def lastEntries : List (Text.CodePoints × Json) → List (Text.CodePoints × Json)
  | [] => []
  | (key, value) :: rest =>
    if rest.any fun entry => entry.1 == key then lastEntries rest
    else (key, value) :: lastEntries rest

mutual

/-- The value that begins a text. -/
def value : (fuel : Nat) → List Char → Except Error (Json × List Char)
  | 0, _ => .error .malformed
  | fuel + 1, text =>
    match text with
    | '"' :: rest => do
      let (points, rest) ← quoted rest
      return (string points, rest)
    | '[' :: rest =>
      match skipSpace rest with
      | ']' :: rest => .ok (list [], rest)
      | rest => do
        let (items, rest) ← items fuel rest
        return (list items, rest)
    | '\x7b' :: rest =>
      match skipSpace rest with
      | '\x7d' :: rest => .ok (object [], rest)
      | rest => do
        let (entries, rest) ← entries fuel rest
        return (object (lastEntries entries), rest)
    | _ => word text

/-- The items of an array up to its end. -/
def items : (fuel : Nat) → List Char → Except Error (List Json × List Char)
  | 0, _ => .error .malformed
  | fuel + 1, text => do
    let (first, rest) ← value fuel text
    match skipSpace rest with
    | ']' :: rest => return ([first], rest)
    | ',' :: rest =>
      let (more, rest) ← items fuel (skipSpace rest)
      return (first :: more, rest)
    | _ => .error .malformed

/-- The entries of an object up to its end. -/
def entries : (fuel : Nat) → List Char → Except Error (List (Text.CodePoints × Json) × List Char)
  | 0, _ => .error .malformed
  | fuel + 1, text => do
    match text with
    | '"' :: rest =>
      let (key, rest) ← quoted rest
      match skipSpace rest with
      | ':' :: rest =>
        let (first, rest) ← value fuel (skipSpace rest)
        match skipSpace rest with
        | '\x7d' :: rest => return ([(key, first)], rest)
        | ',' :: rest =>
          let (more, rest) ← entries fuel (skipSpace rest)
          return ((key, first) :: more, rest)
        | _ => .error .malformed
      | _ => .error .malformed
    | _ => .error .malformed

end

/-- A text without the byte order mark in front of it. -/
def skipMark : List Char → List Char
  | '\uFEFF' :: rest => rest
  | text => text

/-- The value of a whole text. Every second level of reading consumes a character, which bounds
their number. -/
def ofText (text : List Char) : Except Error Json := do
  let text := skipSpace (skipMark text)
  let (result, rest) ← value (2 * text.length + 1) text
  if skipSpace rest = [] then return result else .error .malformed

/-- The value under a key of an object. -/
def entry? (key : Text.CodePoints) (entries : List (Text.CodePoints × Json)) : Option Json :=
  (entries.find? fun entry => entry.1 == key).map Prod.snd

mutual

/-- Whether all numbers and texts in a value pass the tests. -/
def all (number : Binary64 → Bool) (points : Text.CodePoints → Bool) : Json → Bool
  | null => true
  | bool _ => true
  | integer _ => true
  | real value => number value
  | string value => points value
  | list items => allItems number points items
  | object entries => allEntries number points entries

/-- Whether all numbers and texts in some values pass the tests. -/
def allItems (number : Binary64 → Bool) (points : Text.CodePoints → Bool) : List Json → Bool
  | [] => true
  | item :: rest => item.all number points && allItems number points rest

/-- Whether all numbers and texts in some entries pass the tests. -/
def allEntries (number : Binary64 → Bool) (points : Text.CodePoints → Bool) :
    List (Text.CodePoints × Json) → Bool
  | [] => true
  | (key, value) :: rest =>
    points key && value.all number points && allEntries number points rest

end

/-- Whether all numbers in a value are finite. -/
def isFinite (json : Json) : Bool := json.all (fun value => value.isFinite) fun _ => true

/-- Whether all texts in a value are made of characters. -/
def isText (json : Json) : Bool := json.all (fun _ => true) fun points => points.toText?.isSome

end Json

end Slick
