/-!
# A place in a YAML text

A cursor is the rest of a text with its place: how many characters lie before it, on which
line it stands and in which column, all counted from zero. Behind the end of the text stands
the null character, which no YAML text holds.
-/

namespace Slick.Yaml

/-- Why a text has no meaning as YAML. -/
inductive Error where
  /-- The text does not follow the rules of YAML, or a node does not fit its tag. -/
  | malformed
  /-- A number, a date or a character code is out of range. -/
  | outOfRange
  /-- A character code has more than 31 bits, or a number in base sixty has too many places. -/
  | tooLarge
  /-- The tag of truth values stands before another word. -/
  | notATruth
  /-- The tag of numbers stands before an empty scalar. -/
  | emptyNumber
  /-- The tag of dates stands before something else. -/
  | notADate
  /-- The tag of dates stands before a mapping. -/
  | notAScalar
  /-- A mapping is its own default value. -/
  | endless
  deriving DecidableEq, Repr

/-- The character behind the end of a text. -/
def endMark : Char := Char.ofNat 0

/-- Characters that break a line. -/
def isBreak (c : Char) : Bool :=
  c = '\n' || c = '\u0085' || c = '\u2028' || c = '\u2029'

/-- The end of a line or of the text. -/
def isLineEnd (c : Char) : Bool := isBreak c || c = endMark

/-- A space, or the end of a line or of the text. -/
def isSpaceOrEnd (c : Char) : Bool := c = ' ' || isLineEnd c

/-- A space, a tab, or the end of a line or of the text. -/
def isGap (c : Char) : Bool := c = '\t' || isSpaceOrEnd c

/-- Characters of directive names and anchors. -/
def isNameChar (c : Char) : Bool := c.isAlphanum || c = '-' || c = '_'

/-- Characters that a YAML text may hold. -/
def isAllowed (c : Char) : Bool :=
  let n := c.toNat
  n = 0x09 || n = 0x0A || n = 0x0D || n = 0x85 || (0x20 ≤ n && n ≤ 0x7E) ||
    (0xA0 ≤ n && n ≤ 0xD7FF) || (0xE000 ≤ n && n ≤ 0xFFFD) || 0x10000 ≤ n

/-- The size of the blocks in which a text is taken in. The first one has twice this size. -/
def blockSize : Nat := 4096

/-- The part of a text before the block with the first character that is not allowed, and whether
such a block follows. A block is refused as a whole when the reading gets to it. -/
def readable (text : List Char) : List Char × Bool :=
  let index := (text.takeWhile isAllowed).length
  if index = text.length then (text, false)
  else if index < 2 * blockSize then ([], true)
  else (text.take (index / blockSize * blockSize), true)

/-- The rest of a text and its place. -/
structure Cursor where
  rest : List Char
  index : Nat := 0
  line : Nat := 0
  column : Nat := 0

namespace Cursor

/-- The next character. -/
def peek (c : Cursor) : Char := c.rest.headD endMark

/-- The character at a distance. -/
def peekAt (c : Cursor) (distance : Nat) : Char := c.rest.getD distance endMark

/-- The place behind the next character. A byte order mark takes no column. -/
def next (c : Cursor) : Cursor :=
  match c.rest with
  | [] => c
  | char :: rest =>
    if isBreak char then ⟨rest, c.index + 1, c.line + 1, 0⟩
    else if char = '\uFEFF' then ⟨rest, c.index + 1, c.line, c.column⟩
    else ⟨rest, c.index + 1, c.line, c.column + 1⟩

/-- The place behind some characters. -/
def skip (c : Cursor) : Nat → Cursor
  | 0 => c
  | n + 1 => c.next.skip n

/-- The characters that pass a test, and the place behind them. -/
def takeWhile (c : Cursor) (test : Char → Bool) : List Char × Cursor :=
  let run := c.rest.takeWhile test
  (run, c.skip run.length)

/-- The place behind the characters that pass a test. -/
def skipWhile (c : Cursor) (test : Char → Bool) : Cursor := (c.takeWhile test).2

/-- The place behind spaces. -/
def skipSpaces (c : Cursor) : Cursor := c.skipWhile (· = ' ')

/-- The place behind spaces, but not beyond a column. -/
def skipSpacesTo (c : Cursor) (column : Nat) : Cursor :=
  c.skip (min (column - c.column) (c.rest.takeWhile (· = ' ')).length)

/-- A line break as it counts in a scalar, and the place behind it. -/
def lineBreak? (c : Cursor) : Option (Char × Cursor) :=
  if isBreak c.peek then
    some (if c.peek = '\u0085' then '\n' else c.peek, c.next)
  else none

/-- Whether a document separator with the given sign stands here. -/
def isSeparator (c : Cursor) (sign : Char) : Bool :=
  c.rest.take 3 == [sign, sign, sign] && isGap (c.peekAt 3)

/-- Whether any document separator stands here. -/
def isAnySeparator (c : Cursor) : Bool := c.isSeparator '-' || c.isSeparator '.'

/-- The place behind spaces, a comment and the end of the line, with nothing else before it. -/
def skipLineRest (c : Cursor) : Except Error Cursor :=
  let c := c.skipSpaces
  let c := if c.peek = '#' then c.skipWhile (!isLineEnd ·) else c
  if isLineEnd c.peek then .ok c.next else .error .malformed

end Cursor

end Slick.Yaml
