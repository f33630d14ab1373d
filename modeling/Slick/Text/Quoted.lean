import Slick.Text.Printable

/-!
# Quoted text in messages

Messages show pieces of source between quotes. A single quote delimits unless the text
holds single quotes and no double quote. Inside, the delimiter and the backslash are
escaped, and so is every character that is not printable.
-/

namespace Slick.Text

/-- The last `width` digits of a number in base sixteen, in lower case. -/
def hexDigits : (width : Nat) → Nat → List Char
  | 0, _ => []
  | width + 1, n => hexDigits width (n / 16) ++ [Nat.digitChar (n % 16)]

/-- As many digits are written as are asked for. -/
@[simp] theorem hexDigits_length (width n : Nat) : (hexDigits width n).length = width := by
  induction width generalizing n with
  | zero => rfl
  | succ width ih => simp [hexDigits, ih]

/-- A code point as an escape: two, four or eight digits, the fewest that hold it. -/
def escapedPoint (point : Nat) : List Char :=
  if point < 0x100 then '\\' :: 'x' :: hexDigits 2 point
  else if point < 0x10000 then '\\' :: 'u' :: hexDigits 4 point
  else '\\' :: 'U' :: hexDigits 8 point

/-- One character between the given quotes. -/
def quotedChar (quote c : Char) : List Char :=
  if c = quote ∨ c = '\\' then ['\\', c]
  else if c = '\n' then ['\\', 'n']
  else if c = '\r' then ['\\', 'r']
  else if c = '\t' then ['\\', 't']
  else if isPrintable c then [c]
  else escapedPoint c.toNat

/-- The quote that delimits a text. -/
def delimiter (text : List Char) : Char :=
  if '\'' ∈ text ∧ '"' ∉ text then '"' else '\''

/-- A text as messages show it. -/
def quoted (text : String) : String :=
  let chars := text.toList
  let quote := delimiter chars
  String.ofList (quote :: chars.flatMap (quotedChar quote) ++ [quote])

end Slick.Text
