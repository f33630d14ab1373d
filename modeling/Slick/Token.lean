import Slick.Text.Quoted
import Slick.Token.Kind
import Slick.Value

/-!
# Tokens

A lexeme is a piece of source with its kind and value; a token is a lexeme at a place.
Lines and columns count characters from one. A token does not know the path of its source; a
location is a place together with that path.
-/

namespace Slick

/-- A place in a source text. -/
structure Position where
  line : Nat
  column : Nat
  deriving DecidableEq, Repr, Inhabited

/-- A place in the source that has the given path. -/
structure Location extends Position where
  path : Option String := none
  deriving DecidableEq, Repr, Inhabited

/-- A piece of source with its kind and the value it stands for. -/
structure Lexeme where
  kind : Kind
  /-- The piece as it is written. -/
  text : String
  value : Value := .nothing
  deriving Repr, Inhabited

/-- A lexeme at a place. -/
structure Token extends Lexeme, Position
  deriving Repr, Inhabited

namespace Lexeme

/-- The lexeme as a token at a place. -/
def place (lexeme : Lexeme) (line column : Nat) : Token :=
  { lexeme with line, column }

/-- The mark at the end of a line. -/
def newline : Lexeme := ⟨.newline, "\n", .nothing⟩

/-- The mark in front of a deeper line. -/
def indent : Lexeme := ⟨.indent, "", .nothing⟩

/-- The mark for the end of one level of depth. -/
def dedent : Lexeme := ⟨.dedent, "", .nothing⟩

/-- The mark at the end of a source. -/
def eof : Lexeme := ⟨.eof, "", .nothing⟩

/-- A lexeme in its place is the lexeme. -/
@[simp] theorem toLexeme_place (lexeme : Lexeme) (line column : Nat) :
    (lexeme.place line column).toLexeme = lexeme := rfl

/-- A lexeme stands in the line where it is placed. -/
@[simp] theorem line_place (lexeme : Lexeme) (line column : Nat) :
    (lexeme.place line column).line = line := rfl

/-- A lexeme stands in the column where it is placed. -/
@[simp] theorem column_place (lexeme : Lexeme) (line column : Nat) :
    (lexeme.place line column).column = column := rfl

/-- A reserved word with the given spelling. -/
def isWord (word : String) (lexeme : Lexeme) : Bool :=
  lexeme.kind == .keyword && (Wanted.text word).accepts lexeme.value

/-- A reserved word that stands for a truth value. -/
def isTruth (lexeme : Lexeme) : Bool :=
  lexeme.kind == .keyword &&
    match lexeme.value with
    | .bool _ => true
    | _ => false

end Lexeme

namespace Token

/-- Where a token stands in the source with the given path. -/
def location (path : Option String) (token : Token) : Location := ⟨token.toPosition, path⟩

/-- A token is located where it stands. -/
@[simp] theorem toPosition_location (path : Option String) (token : Token) :
    (token.location path).toPosition = token.toPosition := rfl

/-- A token is located under the given path. -/
@[simp] theorem path_location (path : Option String) (token : Token) :
    (token.location path).path = path := rfl

/-- The token in a listing: its kind, its spelling and its place. -/
def listing (token : Token) : String :=
  s!"Token({token.kind.name}, {Text.quoted token.text}, L{token.line}:{token.column})"

end Token

end Slick
