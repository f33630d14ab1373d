/-!
# Code points

Texts that escapes have put together may hold halves of surrogate pairs, which are code points
but not characters. Such a text is the list of its code points.
-/

namespace Slick.Text

/-- A text as code points, some of which may be halves of surrogate pairs. -/
abbrev CodePoints := List Nat

namespace CodePoints

/-- The code points of characters. -/
def ofChars (text : List Char) : CodePoints := text.map Char.toNat

/-- The character at a code point; the replacement character stands for half of a pair. -/
def charOf (point : Nat) : Char :=
  if point.isValidChar then Char.ofNat point else '\uFFFD'

/-- The characters at code points, with replacement characters for halves of pairs. -/
def toChars (points : CodePoints) : List Char := points.map charOf

/-- The text that code points make up, if each of them is a character. -/
def toText? (points : CodePoints) : Option String :=
  if points.all fun point => point.isValidChar then some (String.ofList points.toChars) else none

/-- Whether a text stands before another one or is the same, code point by code point. -/
def isAtMost : CodePoints → CodePoints → Bool
  | [], _ => true
  | _ :: _, [] => false
  | a :: as, b :: bs => a < b || (a == b && isAtMost as bs)

/-- The code points of characters make up their text. -/
@[simp] theorem toText?_ofChars (text : List Char) :
    toText? (ofChars text) = some (String.ofList text) := by
  have hvalid : ∀ c : Char, c.toNat.isValidChar := fun c => c.valid
  have hback : ∀ c : Char, charOf c.toNat = c := fun c => by
    simp [charOf, hvalid c]
  simp [toText?, ofChars, toChars, hvalid, Function.comp_def, hback]

end CodePoints

end Slick.Text
