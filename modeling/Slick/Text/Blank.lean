import Slick.Text.Spans

/-!
# Blanks

The characters that count as blank around numbers: those that the Unicode standard calls
white space or gives the direction of a separator. A second, smaller set leaves out the four
separators among the control characters.
-/

namespace Slick.Text

/-- The code points of blanks. -/
def blankSpans : Spans :=
  [(0x9, 0xD), (0x1C, 0x20), (0x85, 0x85), (0xA0, 0xA0), (0x1680, 0x1680), (0x2000, 0x200A),
   (0x2028, 0x2029), (0x202F, 0x202F), (0x205F, 0x205F), (0x3000, 0x3000)]

/-- A blank. -/
def isBlank (c : Char) : Bool :=
  blankSpans.contains c.toNat

/-- A blank that is not a separator among the control characters. -/
def isOpenBlank (c : Char) : Bool :=
  isBlank c && !(0x1C ≤ c.toNat && c.toNat ≤ 0x1F)

/-- A text without the characters at both ends that pass a test. -/
def trim (test : Char → Bool) (text : List Char) : List Char :=
  ((text.dropWhile test).reverse.dropWhile test).reverse

end Slick.Text
