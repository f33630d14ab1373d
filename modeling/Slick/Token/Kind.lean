/-!
# Kinds of tokens

The list of token kinds with the names under which messages show them, and the classes of
kinds that layout and grammar speak of. A token that is not made from a source may be of a
foreign kind, for which the grammar has no place.
-/

namespace Slick

/-- What a token is. -/
inductive Kind where
  /-- A numeral. -/
  | number
  /-- A text literal. -/
  | text
  /-- A word that names a binding, a parameter or a field. -/
  | ident
  /-- A word that names a type or a subtype. -/
  | uident
  /-- A reserved word. -/
  | keyword
  | fn | arrow | colon | comma | dot | pipe
  | lparen | rparen | lbracket | rbracket | lbrace | rbrace
  | plus | minus | star | slash | amp
  | eq | ne | lt | le | gt | ge
  /-- The end of a line that holds tokens. -/
  | newline
  /-- A line stands deeper than the one before. -/
  | indent
  /-- One level of depth ends. -/
  | dedent
  /-- The end of the source. -/
  | eof
  /-- A kind that the language does not have, with its name. -/
  | foreign (name : String)
  deriving DecidableEq, Repr, Inhabited

namespace Kind

/-- All kinds of the language. -/
def all : List Kind :=
  [number, text, ident, uident, keyword, fn, arrow, colon, comma, dot, pipe, lparen, rparen,
    lbracket, rbracket, lbrace, rbrace, plus, minus, star, slash, amp, eq, ne, lt, le, gt, ge,
    newline, indent, dedent, eof]

/-- The name under which messages show a kind. -/
def name : Kind → String
  | number => "NUMBER"
  | text => "TEXT"
  | ident => "IDENT"
  | uident => "UIDENT"
  | keyword => "KEYWORD"
  | fn => "FN"
  | arrow => "ARROW"
  | colon => "COLON"
  | comma => "COMMA"
  | dot => "DOT"
  | pipe => "PIPE"
  | lparen => "LPAREN"
  | rparen => "RPAREN"
  | lbracket => "LBRACKET"
  | rbracket => "RBRACKET"
  | lbrace => "LBRACE"
  | rbrace => "RBRACE"
  | plus => "PLUS"
  | minus => "MINUS"
  | star => "STAR"
  | slash => "SLASH"
  | amp => "AMP"
  | eq => "EQ"
  | ne => "NE"
  | lt => "LT"
  | le => "LE"
  | gt => "GT"
  | ge => "GE"
  | newline => "NEWLINE"
  | indent => "INDENT"
  | dedent => "DEDENT"
  | eof => "EOF"
  | foreign name => name

/-- The kind of a given name. -/
def ofName (name : String) : Kind :=
  (all.find? fun kind => kind.name == name).getD (foreign name)

/-- The kind of a name has that name. -/
@[simp] theorem name_ofName (name : String) : (ofName name).name = name := by
  unfold ofName
  cases hfind : all.find? fun kind => kind.name == name with
  | none => rfl
  | some kind => simpa using List.find?_some hfind

private theorem ofName_name {kind : Kind} (h : kind ∈ all) : ofName kind.name = kind := by
  have hall : ∀ kind ∈ all, ofName kind.name = kind := by decide
  exact hall kind h

/-- Opening brackets. -/
def isOpener : Kind → Bool
  | lparen | lbracket | lbrace => true
  | _ => false

/-- Closing brackets. -/
def isCloser : Kind → Bool
  | rparen | rbracket | rbrace => true
  | _ => false

/-- Operators that compare. -/
def isComparison : Kind → Bool
  | eq | ne | lt | le | gt | ge => true
  | _ => false

/-- Operators that add. -/
def isAdditive : Kind → Bool
  | plus | minus | amp => true
  | _ => false

/-- Operators that multiply. -/
def isMultiplicative : Kind → Bool
  | star | slash => true
  | _ => false

/-- Kinds that start an argument of a call. A minus sign is not among them, so that it stays an
operator between two operands. -/
def startsArgument : Kind → Bool
  | number | text | ident | uident | lparen | lbracket | lbrace => true
  | _ => false

/-- Kinds that start a part of a type. -/
def startsType : Kind → Bool
  | ident | uident | lparen => true
  | _ => false

/-- Marks that layout adds to the tokens of the lines. -/
def isLayout : Kind → Bool
  | newline | indent | dedent | eof => true
  | _ => false

end Kind

end Slick
