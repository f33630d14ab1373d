import Slick.Yaml.Moment

/-!
# Types of nodes

A node has the type that its tag names. A plain scalar without a tag is typed by its spelling:
words for nothing and for truth values, numbers in several bases, with underscores or in base
sixty, dates and times, and the signs for merged mappings and default values. Everything else is
text. A line feed at the end of a scalar does not count for its type.
-/

namespace Slick.Yaml

/-- The type of a node. -/
inductive Tag where
  | text | null | bool | int | float | date | merge | default | binary
  | sequence | mapping | set | orderedMapping | pairs
  | unknown
  deriving DecidableEq, Repr

namespace Tag

/-- The beginning of the tags of the standard types. -/
def standard : String := "tag:yaml.org,2002:"

/-- The type that a tag names. -/
def ofName (name : String) : Tag :=
  let types := [("str", text), ("null", null), ("bool", bool), ("int", int), ("float", float),
    ("timestamp", date), ("merge", merge), ("value", default), ("binary", binary),
    ("seq", sequence), ("map", mapping), ("set", set), ("omap", orderedMapping), ("pairs", pairs)]
  match types.find? fun (type, _) => standard ++ type = name with
  | some (_, tag) => tag
  | none => unknown

/-- Whether a text is not empty and all its characters pass a test. -/
def isRun (test : Char → Bool) (text : List Char) : Bool := !text.isEmpty && text.all test

/-- A text without a sign in front. -/
def unsigned : List Char → List Char
  | '-' :: rest => rest
  | '+' :: rest => rest
  | rest => rest

/-- Decimal digits and underscores. -/
def isDigitOrLine (c : Char) : Bool := c.isDigit || c = '_'

/-- Decimal digits with underscores, a digit first. -/
def isDecimal : List Char → Bool
  | [] => false
  | c :: rest => c.isDigit && rest.all isDigitOrLine

/-- One or two digits below sixty. -/
def isSixtieth : List Char → Bool
  | [a] => a.isDigit
  | [a, b] => '0' ≤ a && a ≤ '5' && b.isDigit
  | _ => false

/-- The spelling of an integer. -/
def isInteger (text : List Char) : Bool :=
  match unsigned text with
  | [] => false
  | '0' :: 'b' :: run => isRun (fun c => c = '0' || c = '1' || c = '_') run
  | '0' :: 'x' :: run => isRun (fun c => (Char.isDigit c || ('a' ≤ c && c ≤ 'f') ||
      ('A' ≤ c && c ≤ 'F') || c = '_')) run
  | '0' :: run => run.all fun c => ('0' ≤ c && c ≤ '7') || c = '_'
  | run =>
    isDecimal run ||
      match split ':' run with
      | first :: second :: more => isDecimal first && (second :: more).all isSixtieth
      | _ => false

/-- An optional exponent, which has a sign. -/
def isExponent : List Char → Bool
  | [] => true
  | e :: sign :: digits =>
    (e = 'e' || e = 'E') && (sign = '-' || sign = '+') && isRun Char.isDigit digits
  | _ => false

/-- Digits behind a point, and an optional exponent. -/
def isFraction (text : List Char) : Bool := isExponent (text.dropWhile isDigitOrLine)

/-- The spelling of a number that is not an integer. -/
def isFloat (text : List Char) : Bool :=
  let run := unsigned text
  let whole := run.takeWhile (· ≠ '.')
  let behind := (run.dropWhile (· ≠ '.')).drop 1
  if !run.contains '.' then false
  else if text.head? = some '.' ∧ behind.head?.any Char.isDigit then isFraction behind
  else if whole = [] then
    behind ∈ ["inf".toList, "Inf".toList, "INF".toList] ||
      (text.head? = some '.' && ["nan".toList, "NaN".toList, "NAN".toList].contains behind)
  else
    (isDecimal whole && isFraction behind) ||
      match split ':' whole with
      | first :: second :: more =>
        isDecimal first && (second :: more).all isSixtieth && behind.all isDigitOrLine
      | _ => false

/-- Words for truth values. -/
def truthOf? (word : String) : Option Bool :=
  if word ∈ ["yes", "true", "on"] then some true
  else if word ∈ ["no", "false", "off"] then some false
  else none

/-- Words for truth values in lower case, in upper case or with a capital. -/
def isTruth (text : String) : Bool :=
  let lower := text.map Char.toLower
  (truthOf? lower).isSome &&
    (text = lower || text = text.map Char.toUpper || text = lower.capitalize)

/-- The type that a spelling has. -/
def ofSpelling (text : List Char) : Tag :=
  let word := String.ofList text
  if isTruth word then .bool
  else if isFloat text then .float
  else if isInteger text then .int
  else if word = "<<" then .merge
  else if word ∈ ["", "~", "null", "Null", "NULL"] then .null
  else if (Moment.ofText? true text).isSome then .date
  else if word = "=" then .default
  else if word ∈ ["!", "&", "*"] then .unknown
  else .text

/-- The type of a plain scalar. A line feed alone is text. -/
def ofPlain (text : List Char) : Tag :=
  if text = ['\n'] then .text else ofSpelling (withoutLineFeed text)

end Tag

end Slick.Yaml
