import Slick.Integer
import Slick.Yaml.Scalar

/-!
# Tokens of a YAML text

Outside of flow brackets indentation delimits collections, so the tokens include the starts
and ends of blocks. Whether a node is the key of a mapping shows only at the colon behind
it: a node that could be a key is remembered with its place among the tokens, and when the
colon comes, the mark of the key is put in front of it. Such a key stands on one line and has
at most 1024 characters.

A text that breaks the rules has tokens up to a place. Whoever reads them in order meets the
failure only there: behind the tokens that were complete before it, or at the first node that
could still have become a key.
-/

namespace Slick.Yaml

/-- A tag as it is written: a handle, which may be left out, and what follows it. -/
structure TagText where
  handle : Option String
  rest : String
  deriving DecidableEq, Repr

/-- What a directive says. -/
inductive Directive where
  | version (major minor : Nat)
  | tag (handle beginning : String)
  | other (name : String)
  deriving DecidableEq, Repr

/-- A token of a YAML text. -/
inductive Token where
  | directive (directive : Directive)
  | documentStart | documentEnd
  | blockSequenceStart | blockMappingStart | blockEnd
  | flowSequenceStart | flowSequenceEnd | flowMappingStart | flowMappingEnd
  | blockEntry | flowEntry | key | value
  | alias (name : String)
  | anchor (name : String)
  | tag (tag : TagText)
  | scalar (text : Text.CodePoints) (plain : Bool)
  | streamEnd
  deriving DecidableEq, Repr

namespace Cursor

/-- A run of name characters with at least one of them. -/
def name (c : Cursor) : Except Error (List Char × Cursor) :=
  match c.takeWhile isNameChar with
  | ([], _) => .error .malformed
  | named => .ok named

/-- The handle of a tag: exclamation marks around a name that may be empty, or a single one. -/
def tagHandle (c : Cursor) : Except Error (List Char × Cursor) :=
  if c.peek ≠ '!' then .error .malformed
  else if c.peekAt 1 = ' ' then .ok (['!'], c.next)
  else
    let (name, c) := c.next.takeWhile isNameChar
    if c.peek = '!' then .ok ('!' :: (name ++ ['!']), c.next) else .error .malformed

/-- Characters of tags. -/
def isTagChar (c : Char) : Bool :=
  c.isAlphanum || "-;/?:@&=+$,_.!~*'()[]%".toList.contains c

/-- Bytes written as percent signs with two digits each. -/
def percentBytes : (fuel : Nat) → Cursor → Except Error (List UInt8 × Cursor)
  | 0, c => .ok ([], c)
  | fuel + 1, c =>
    if c.peek ≠ '%' then .ok ([], c)
    else if c.next.rest.length < 2 then .error .malformed
    else
      match Integer.ofDigits? 16 (c.next.rest.take 2) with
      | none => .error .malformed
      | some byte => do
        let (more, c) ← percentBytes fuel (c.skip 3)
        return (byte.toUInt8 :: more, c)

/-- The characters of a tag, with bytes in percent signs decoded. -/
def tagChars : (fuel : Nat) → Cursor → Except Error (List Char × Cursor)
  | 0, c => .ok ([], c)
  | fuel + 1, c =>
    if !isTagChar c.peek then .ok ([], c)
    else if c.peek = '%' then do
      let (bytes, c) ← percentBytes (c.rest.length + 1) c
      match String.fromUTF8? ⟨bytes.toArray⟩ with
      | none => .error .malformed
      | some text =>
        let (more, c) ← tagChars fuel c
        return (text.toList ++ more, c)
    else do
      let (more, after) ← tagChars fuel c.next
      return (c.peek :: more, after)

/-- The characters of a tag, at least one. -/
def tagRest (c : Cursor) : Except Error (String × Cursor) := do
  if isTagChar c.peek then
    let (text, c) ← tagChars (c.rest.length + 1) c
    return (String.ofList text, c)
  else .error .malformed

/-- A tag. -/
def tag (c : Cursor) : Except Error (TagText × Cursor) := do
  let (tag, c) ←
    if c.peekAt 1 = '<' then do
      let (rest, c) ← (c.skip 2).tagRest
      if c.peek = '>' then .ok (⟨none, rest⟩, c.next) else .error .malformed
    else if isGap (c.peekAt 1) then .ok (⟨none, "!"⟩, c.next)
    else if (c.next.rest.takeWhile (!isSpaceOrEnd ·)).contains '!' then do
      let (handle, c) ← c.tagHandle
      let (rest, c) ← c.tagRest
      .ok (⟨some (String.ofList handle), rest⟩, c)
    else do
      let (rest, c) ← c.next.tagRest
      .ok (⟨some "!", rest⟩, c)
  if isSpaceOrEnd c.peek then return (tag, c) else .error .malformed

/-- A number in a version directive. -/
def versionNumber (c : Cursor) : Except Error (Nat × Cursor) :=
  match c.takeWhile Char.isDigit with
  | ([], _) => .error .malformed
  | (digits, c) =>
    match Integer.ofRun? 10 digits with
    | some number => .ok (number, c)
    | none => .error .outOfRange

/-- A directive from behind its percent sign to the end of its line. -/
def directive (c : Cursor) : Except Error (Directive × Cursor) := do
  let (name, c) ← c.name
  if !isSpaceOrEnd c.peek then .error .malformed
  else if name = "YAML".toList then
    let (major, c) ← c.skipSpaces.versionNumber
    if c.peek ≠ '.' then .error .malformed
    else
      let (minor, c) ← c.next.versionNumber
      if !isSpaceOrEnd c.peek then .error .malformed
      else return (.version major minor, ← c.skipLineRest)
  else if name = "TAG".toList then
    let (handle, c) ← c.skipSpaces.tagHandle
    if c.peek ≠ ' ' then .error .malformed
    else
      let (beginning, c) ← c.skipSpaces.tagRest
      if !isSpaceOrEnd c.peek then .error .malformed
      else return (.tag (String.ofList handle) beginning, ← c.skipLineRest)
  else return (.other (String.ofList name), ← (c.skipWhile (!isLineEnd ·)).skipLineRest)

end Cursor

/-- A node that is the key of a mapping if a colon follows it. -/
structure KeyPlace where
  /-- The number of tokens before the node. -/
  before : Nat
  /-- Whether the node can be nothing else. -/
  required : Bool
  cursor : Cursor

/-- The state between two tokens. -/
structure Scan where
  cursor : Cursor
  /-- The tokens so far. -/
  tokens : Array Token := #[]
  /-- The indentation of the innermost block, below zero outside of all blocks. -/
  indent : Int := -1
  /-- The indentations of the blocks around it, innermost first. -/
  outer : List Int := []
  /-- Whether a key may start here. -/
  keyAllowed : Bool := true
  /-- The possible key of the present collection. -/
  keyPlace : Option KeyPlace := none
  /-- The possible keys around the open flow brackets, innermost first. -/
  outerKeys : List (Option KeyPlace) := []

namespace Scan

/-- Whether flow brackets are open. -/
def inFlow (s : Scan) : Bool := !s.outerKeys.isEmpty

/-- Adds a token. -/
def emit (s : Scan) (token : Token) : Scan := { s with tokens := s.tokens.push token }

/-- Puts a token in front of those from a place on. -/
def insert (s : Scan) (before : Nat) (token : Token) : Scan :=
  { s with tokens := (s.tokens.take before).push token ++ s.tokens.drop before }

/-- Moves to another place. -/
def moveTo (s : Scan) (cursor : Cursor) : Scan := { s with cursor }

/-- Ends blocks deeper than a column. -/
def closeBlocks (column : Int) : (outer : List Int) → Scan → Scan
  | [], s => s
  | indent :: outer, s =>
    if column < s.indent then
      closeBlocks column outer { (s.emit .blockEnd) with indent, outer }
    else s

/-- Ends the blocks that the present column leaves. Flow brackets hold them open. -/
def unwind (s : Scan) (column : Int) : Scan :=
  if s.inFlow then s else closeBlocks column s.outer s

/-- Starts a block at a column if it is deeper than the present one. -/
def openBlock (s : Scan) (column : Nat) (start : Token) (before : Nat) : Scan :=
  if s.indent < column then
    { (s.insert before start) with indent := column, outer := s.indent :: s.outer }
  else s

/-- Forgets the possible key of the present collection. -/
def dropKey (s : Scan) : Except Error Scan :=
  if s.keyPlace.any (·.required) then .error .malformed
  else .ok { s with keyPlace := none }

/-- Whether a colon comes too late for a key. -/
def isStale (s : Scan) (key : KeyPlace) : Bool :=
  key.cursor.line ≠ s.cursor.line || 1024 < s.cursor.index - key.cursor.index

/-- Forgets the keys for which a colon comes too late. -/
def dropStaleKeys (s : Scan) : Except Error Scan :=
  let late := fun (key : Option KeyPlace) => key.any s.isStale
  let fresh := fun (key : Option KeyPlace) => if late key then none else key
  if (s.keyPlace :: s.outerKeys).any fun key => late key && key.any (·.required) then
    .error .malformed
  else .ok { s with keyPlace := fresh s.keyPlace, outerKeys := s.outerKeys.map fresh }

/-- Remembers the present place for a key. -/
def markKey (s : Scan) : Except Error Scan := do
  if s.keyAllowed then
    let s ← s.dropKey
    let required := !s.inFlow && s.indent = s.cursor.column
    return { s with keyPlace := some ⟨s.tokens.size, required, s.cursor⟩ }
  else return s

/-- The place of the next token: behind blanks, comments and empty lines. Outside of flow brackets
a new line may start with a key. -/
def skipToToken : (fuel : Nat) → Scan → Scan
  | 0, s => s
  | fuel + 1, s =>
    let c := s.cursor.skipSpaces
    let c := if c.peek = '#' then c.skipWhile (!isLineEnd ·) else c
    if isBreak c.peek then
      skipToToken fuel { s with cursor := c.next, keyAllowed := s.keyAllowed || !s.inFlow }
    else s.moveTo c

/-- A sign between documents. -/
def documentSign (s : Scan) (token : Token) : Except Error Scan := do
  let s ← (s.unwind (-1)).dropKey
  return { (s.emit token) with keyAllowed := false, cursor := s.cursor.skip 3 }

/-- An opening flow bracket. -/
def flowStart (s : Scan) (token : Token) : Except Error Scan := do
  let s ← s.markKey
  return { (s.emit token) with
    keyAllowed := true, cursor := s.cursor.next, keyPlace := none
    outerKeys := s.keyPlace :: s.outerKeys }

/-- A closing flow bracket. -/
def flowEnd (s : Scan) (token : Token) : Except Error Scan := do
  let s ← s.dropKey
  match s.outerKeys with
  | [] => .error .malformed
  | key :: outer =>
    return { (s.emit token) with
      keyAllowed := false, cursor := s.cursor.next, keyPlace := key, outerKeys := outer }

/-- A comma between flow brackets. -/
def flowEntry (s : Scan) : Except Error Scan := do
  let s ← s.dropKey
  return { (s.emit .flowEntry) with keyAllowed := true, cursor := s.cursor.next }

/-- A sign that starts an entry of a block, which may start the block. -/
def blockSign (s : Scan) (start : Token) : Except Error Scan :=
  if s.inFlow then .ok s
  else if s.keyAllowed then .ok (s.openBlock s.cursor.column start s.tokens.size)
  else .error .malformed

/-- The dash before an element of a block sequence. -/
def blockEntry (s : Scan) : Except Error Scan := do
  let s ← s.blockSign .blockSequenceStart
  let s ← s.dropKey
  return { (s.emit .blockEntry) with keyAllowed := true, cursor := s.cursor.next }

/-- The question mark before a key. -/
def explicitKey (s : Scan) : Except Error Scan := do
  let s ← s.blockSign .blockMappingStart
  let s ← s.dropKey
  return { (s.emit .key) with keyAllowed := !s.inFlow, cursor := s.cursor.next }

/-- The colon before a value. If a possible key stands before it, the marks of the key and of the
mapping that it starts are put in front of the key. -/
def valueSign (s : Scan) : Except Error Scan := do
  let s ←
    match s.keyPlace with
    | some key =>
      let s := { (s.insert key.before .key) with keyPlace := none, keyAllowed := false }
      .ok (if s.inFlow then s
        else s.openBlock key.cursor.column .blockMappingStart key.before)
    | none => do
      let s ← s.blockSign .blockMappingStart
      let s ← s.dropKey
      .ok { s with keyAllowed := !s.inFlow }
  return { (s.emit .value) with cursor := s.cursor.next }

/-- The name of an alias or an anchor from behind its sign. -/
def anchorName (c : Cursor) : Except Error (String × Cursor) := do
  let (name, c) ← c.name
  if isGap c.peek ∨ c.peek ∈ ['?', ':', ',', ']', '}', '%', '@', '\x60'] then
    return (String.ofList name, c)
  else .error .malformed

/-- A token that can be part of a key. -/
def keyPart (s : Scan) (read : Cursor → Except Error (Token × Cursor)) : Except Error Scan := do
  let s ← s.markKey
  let (token, cursor) ← read s.cursor
  return { (s.emit token) with keyAllowed := false, cursor }

/-- A block scalar. A key may follow it. -/
def blockScalar (s : Scan) (fold : Bool) : Except Error Scan := do
  let s ← s.dropKey
  let (text, cursor) ← s.cursor.next.block fold s.indent
  return { (s.emit (.scalar (.ofChars text) false)) with keyAllowed := true, cursor }

/-- A plain scalar. A key may follow it on a new line. -/
def plainScalar (s : Scan) : Except Error Scan := do
  let s ← s.markKey
  let (text, broken, cursor) :=
    s.cursor.plain s.inFlow (s.indent + 1) (s.cursor.rest.length + 1)
  return { (s.emit (.scalar (.ofChars text) true)) with keyAllowed := broken, cursor }

/-- Whether a plain scalar starts here. -/
def startsPlain (s : Scan) : Bool :=
  let char := s.cursor.peek
  let isSign := isGap char || "-?:,[]{}#&*!|>'\"%@\x60".toList.contains char
  !isSign || (!isGap (s.cursor.peekAt 1) &&
    (char = '-' || (!s.inFlow && (char = '?' || char = ':'))))

/-- Reads the token that stands here. -/
def readToken (s : Scan) : Except Error Scan :=
  let c := s.cursor
  let char := c.peek
  let gapFollows := isGap (c.peekAt 1)
  if char = '%' ∧ c.column = 0 then do
    let s ← (s.unwind (-1)).dropKey
    let (directive, cursor) ← s.cursor.next.directive
    return { (s.emit (.directive directive)) with keyAllowed := false, cursor }
  else if c.column = 0 ∧ c.isSeparator '-' then s.documentSign .documentStart
  else if c.column = 0 ∧ c.isSeparator '.' then s.documentSign .documentEnd
  else if char = '[' then s.flowStart .flowSequenceStart
  else if char = '{' then s.flowStart .flowMappingStart
  else if char = ']' then s.flowEnd .flowSequenceEnd
  else if char = '}' then s.flowEnd .flowMappingEnd
  else if char = ',' then s.flowEntry
  else if char = '-' ∧ gapFollows then s.blockEntry
  else if char = '?' ∧ (s.inFlow ∨ gapFollows) then s.explicitKey
  else if char = ':' ∧ (s.inFlow ∨ gapFollows) then s.valueSign
  else if char = '*' then
    s.keyPart fun c => do
      let (name, c) ← anchorName c.next
      return (.alias name, c)
  else if char = '&' then
    s.keyPart fun c => do
      let (name, c) ← anchorName c.next
      return (.anchor name, c)
  else if char = '!' then
    s.keyPart fun c => do
      let (tag, c) ← c.tag
      return (.tag tag, c)
  else if char = '|' ∧ !s.inFlow then s.blockScalar false
  else if char = '>' ∧ !s.inFlow then s.blockScalar true
  else if char = '\'' ∨ char = '"' then
    s.keyPart fun c => do
      let (text, c) ← c.next.quoted (char = '"') (c.rest.length + 1)
      return (.scalar text false, c)
  else if s.startsPlain then s.plainScalar
  else .error .malformed

/-- Reads one token, or the end of the text with the marks that it closes. The text may stop before
a part that is refused. -/
def advance (refused : Bool) (s : Scan) : Except Error (Bool × Scan) := do
  let s ← (skipToToken (s.cursor.rest.length + 1) s).dropStaleKeys
  let s := s.unwind s.cursor.column
  if s.cursor.peek ≠ endMark then return (false, ← s.readToken)
  else if refused then .error .malformed
  else
    let s ← (s.unwind (-1)).dropKey
    return (true, s.emit .streamEnd)

/-- The tokens that cannot change any more: those before every node that could still be a key. -/
def settled (s : Scan) : List Token :=
  let open? := fun (key : Option KeyPlace) => key.filter fun key => !s.isStale key
  let places := (s.keyPlace :: s.outerKeys).filterMap fun key => (open? key).map (·.before)
  (s.tokens.take (places.foldl min s.tokens.size)).toList

end Scan

/-- The tokens of a text in order, and what one meets behind them. -/
structure TokenStream where
  tokens : List Token
  failure : Error := .malformed

/-- Reads the remaining tokens. -/
def Scan.run (refused : Bool) : (fuel : Nat) → Scan → TokenStream
  | 0, s => ⟨s.settled, .malformed⟩
  | fuel + 1, s =>
    match s.advance refused with
    | .error error => ⟨s.settled, error⟩
    | .ok (true, s) => { tokens := s.tokens.toList }
    | .ok (false, s) => s.run refused fuel

/-- The tokens of a text. A byte order mark at the start is skipped. -/
def TokenStream.ofText (text : List Char) : TokenStream :=
  let (part, refused) := readable text
  let part := if part.head? = some '\uFEFF' then part.tail else part
  Scan.run refused (part.length + 1) { cursor := { rest := part } }

end Slick.Yaml
