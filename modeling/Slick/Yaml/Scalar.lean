import Slick.Integer
import Slick.Text.CodePoints
import Slick.Yaml.Cursor

/-!
# Scalars of a YAML text

Plain scalars, quoted scalars and block scalars. Inside a scalar a single line break counts
as a space and further ones count as themselves, except in literal blocks, where every line
break is kept. Escapes in double quotes can stand for any code point.
-/

namespace Slick.Yaml

namespace Cursor

/-- A folded line break: the first one counts as a space unless more follow. -/
def folded (first : Char) (more : List Char) : List Char :=
  if first ≠ '\n' then first :: more
  else if more = [] then [' ']
  else more

/-- Line breaks with blanks between them, inside quotes. A document separator may not stand
there. -/
def quotedBreaks : (fuel : Nat) → Cursor → Except Error (List Char × Cursor)
  | 0, c => .ok ([], c)
  | fuel + 1, c =>
    if c.isAnySeparator then .error .malformed
    else
      let c := c.skipWhile fun char => char = ' ' || char = '\t'
      match c.lineBreak? with
      | none => .ok ([], c)
      | some (first, c) => do
        let (more, c) ← quotedBreaks fuel c
        return (first :: more, c)

/-- The character that an escape with the given letter stands for. -/
def escape? (letter : Char) : Option Char :=
  match letter with
  | '0' => some (Char.ofNat 0x00)
  | 'a' => some (Char.ofNat 0x07)
  | 'b' => some (Char.ofNat 0x08)
  | 't' => some '\t'
  | '\t' => some '\t'
  | 'n' => some '\n'
  | 'v' => some (Char.ofNat 0x0B)
  | 'f' => some (Char.ofNat 0x0C)
  | 'r' => some '\r'
  | 'e' => some (Char.ofNat 0x1B)
  | ' ' => some ' '
  | '"' => some '"'
  | '\\' => some '\\'
  | '/' => some '/'
  | 'N' => some '\u0085'
  | '_' => some '\u00A0'
  | 'L' => some '\u2028'
  | 'P' => some '\u2029'
  | _ => none

/-- How many digits follow an escape for a character code. -/
def codeLength? (letter : Char) : Option Nat :=
  match letter with
  | 'x' => some 2
  | 'u' => some 4
  | 'U' => some 8
  | _ => none

/-- The code point that the given number of digits spells. -/
def codePoint (c : Cursor) (length : Nat) : Except Error (Nat × Cursor) :=
  if c.rest.length < length then .error .malformed
  else
    match Integer.ofDigits? 16 (c.rest.take length) with
    | none => .error .malformed
    | some code =>
      if code ≤ 0x10FFFF then .ok (code, c.skip length)
      else if code ≤ 0x7FFFFFFF then .error .outOfRange
      else .error .tooLarge

/-- A quoted scalar from behind its opening quote to behind the closing one. -/
def quoted (double : Bool) : (fuel : Nat) → Cursor → Except Error (Text.CodePoints × Cursor)
  | 0, _ => .error .malformed
  | fuel + 1, c =>
    let char := c.peek
    let keepPoints := fun (points : Text.CodePoints) (c : Cursor) => do
      let (more, c) ← quoted double fuel c
      return (points ++ more, c)
    let keep := fun (text : List Char) (c : Cursor) => keepPoints (.ofChars text) c
    if char = endMark then .error .malformed
    else if char = '\'' ∧ !double ∧ c.peekAt 1 = '\'' then keep ['\''] (c.skip 2)
    else if char = (if double then '"' else '\'') then .ok ([], c.next)
    else if double ∧ char = '\\' then
      let c := c.next
      match escape? c.peek, codeLength? c.peek, c.lineBreak? with
      | some meant, _, _ => keep [meant] c.next
      | none, some length, _ => do
        let (meant, c) ← c.next.codePoint length
        keepPoints [meant] c
      | none, none, some (_, c) => do
        let (breaks, c) ← quotedBreaks c.rest.length c
        keep breaks c
      | none, none, none => .error .malformed
    else if isGap char then
      let (blanks, c) := c.takeWhile fun char => char = ' ' || char = '\t'
      match c.lineBreak? with
      | none => keep blanks c
      | some (first, c) => do
        let (breaks, c) ← quotedBreaks (c.rest.length + 1) c
        keep (folded first breaks) c
    else keep [char] c.next

/-- What separates two pieces of a plain scalar: spaces, or line breaks with spaces around them. -/
structure Separation where
  /-- What the separation counts as; nothing if the scalar ends here. -/
  text : List Char
  /-- Whether a line break is part of it. -/
  broken : Bool
  after : Cursor

/-- Line breaks and spaces between the lines of a plain scalar; nothing if a document separator
follows. -/
def plainBreaks : (fuel : Nat) → Cursor → Option (List Char) × Cursor
  | 0, c => (some [], c)
  | fuel + 1, c =>
    let c := c.skipSpaces
    match c.lineBreak? with
    | none => (some [], c)
    | some (first, c) =>
      if c.isAnySeparator then (none, c)
      else
        let (more, c) := plainBreaks fuel c
        (more.map (first :: ·), c)

/-- The separation behind a piece of a plain scalar. -/
def separation (c : Cursor) : Separation :=
  let (spaces, c) := c.takeWhile (· = ' ')
  match c.lineBreak? with
  | none => ⟨spaces, false, c⟩
  | some (first, c) =>
    if c.isAnySeparator then ⟨[], true, c⟩
    else
      match plainBreaks (c.rest.length + 1) c with
      | (none, c) => ⟨[], true, c⟩
      | (some more, c) => ⟨folded first more, true, c⟩

/-- The length of the piece of a plain scalar that stands here: it ends at a gap, at a colon
before a gap, and between flow brackets at their signs. -/
def plainLength (flow : Bool) : List Char → Nat
  | [] => 0
  | char :: rest =>
    let next := rest.headD endMark
    if isGap char then 0
    else if char = ':' ∧ (isGap next ∨ flow ∧ next ∈ [',', '[', ']', '{', '}']) then 0
    else if flow ∧ char ∈ [',', '?', '[', ']', '{', '}'] then 0
    else plainLength flow rest + 1

/-- A plain scalar, whether a line break follows its last piece, and the place behind it. Outside
of flow brackets its lines stand at `indent` at least. -/
def plain (flow : Bool) (indent : Int) : (fuel : Nat) → Cursor → List Char × Bool × Cursor
  | 0, c => ([], false, c)
  | fuel + 1, c =>
    if c.peek = '#' then ([], false, c)
    else
      match plainLength flow c.rest with
      | 0 => ([], false, c)
      | length =>
        let piece := c.rest.take length
        let gap := (c.skip length).separation
        if gap.text = [] ∨ gap.after.peek = '#' ∨ (!flow ∧ gap.after.column < indent) then
          (piece, gap.broken, gap.after)
        else
          match plain flow indent fuel gap.after with
          | ([], _, c) => (piece, gap.broken, c)
          | (more, broken, c) => (piece ++ gap.text ++ more, broken, c)

/-- How a block scalar treats the line breaks at its end. -/
inductive Chomping where
  | clip | strip | keep
  deriving DecidableEq, Repr

/-- The sign of a chomping rule. -/
def chomping? (c : Char) : Option Chomping :=
  if c = '+' then some .keep else if c = '-' then some .strip else none

/-- The signs behind the indicator of a block scalar: chomping and indentation, in any order. -/
def blockHeader (c : Cursor) : Except Error (Chomping × Option Nat × Cursor) := do
  let digit? := fun (c : Cursor) => if c.peek.isDigit then some (c.peek.toNat - '0'.toNat) else none
  let (chomping, increment, c) :=
    match chomping? c.peek, digit? c with
    | some chomping, _ =>
      match digit? c.next with
      | some n => (chomping, some n, c.skip 2)
      | none => (chomping, none, c.next)
    | none, some n =>
      match chomping? c.next.peek with
      | some chomping => (chomping, some n, c.skip 2)
      | none => (.clip, some n, c.next)
    | none, none => (.clip, none, c)
  if increment = some 0 ∨ !isSpaceOrEnd c.peek then .error .malformed
  else
    let c ← c.skipLineRest
    return (chomping, increment, c)

/-- The line breaks before the first line of a block scalar, and the widest indentation among
them. -/
def blockStart : (fuel : Nat) → Cursor → List Char × Nat × Cursor
  | 0, c => ([], 0, c)
  | fuel + 1, c =>
    let c := c.skipSpaces
    match c.lineBreak? with
    | none => ([], c.column, c)
    | some (first, after) =>
      let (more, widest, last) := blockStart fuel after
      (first :: more, max c.column widest, last)

/-- Line breaks between the lines of a block scalar, with the indentation of the lines skipped. -/
def blockBreaks (indent : Nat) : (fuel : Nat) → Cursor → List Char × Cursor
  | 0, c => ([], c)
  | fuel + 1, c =>
    let c := c.skipSpacesTo indent
    match c.lineBreak? with
    | none => ([], c)
    | some (first, c) =>
      let (more, c) := blockBreaks indent fuel c
      (first :: more, c)

/-- The lines of a block scalar, of which the first stands here behind the given line breaks; the
line break behind the last line and the breaks behind that. -/
def blockLines (fold : Bool) (indent : Nat) :
    (fuel : Nat) → (breaks : List Char) → Cursor → List Char × List Char × List Char × Cursor
  | 0, breaks, c => ([], [], breaks, c)
  | fuel + 1, breaks, c =>
    if c.column ≠ indent ∨ c.peek = endMark then ([], [], breaks, c)
    else
      let isBlank := fun (char : Char) => char = ' ' || char = '\t'
      let starts := !isBlank c.peek
      let (text, c) := c.takeWhile (!isLineEnd ·)
      let (ended, c) :=
        match c.lineBreak? with
        | none => ([], c)
        | some (char, c) => ([char], c)
      let (more, c) := blockBreaks indent (c.rest.length + 1) c
      if c.column = indent ∧ c.peek ≠ endMark then
        let joint :=
          if fold ∧ ended = ['\n'] ∧ starts ∧ !isBlank c.peek then
            if more = [] then [' '] else []
          else ended
        let (rest, last, trailing, c) := blockLines fold indent fuel more c
        (breaks ++ text ++ joint ++ rest, last, trailing, c)
      else (breaks ++ text, ended, more, c)

/-- A block scalar from behind its indicator. The lines stand deeper than the given indentation. -/
def block (fold : Bool) (outer : Int) (c : Cursor) : Except Error (List Char × Cursor) := do
  let (chomping, increment, c) ← c.blockHeader
  let least := (max (outer + 1) 1).toNat
  let (breaks, indent, c) :=
    match increment with
    | none =>
      let (breaks, widest, c) := blockStart (c.rest.length + 1) c
      (breaks, max least widest, c)
    | some n =>
      let indent := least + n - 1
      let (breaks, c) := blockBreaks indent (c.rest.length + 1) c
      (breaks, indent, c)
  let (text, last, trailing, c) := blockLines fold indent (c.rest.length + 1) breaks c
  return match chomping with
    | .strip => (text, c)
    | .clip => (text ++ last, c)
    | .keep => (text ++ last ++ trailing, c)

end Cursor

end Slick.Yaml
