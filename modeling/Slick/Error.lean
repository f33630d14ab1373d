import Slick.Token

/-!
# Errors in a source text

An error has a cause and a place. The wording of every cause is in one function, and the
text of an error puts the path and the place in front of it.
-/

namespace Slick

/-- An error as it is reported: a message with as much of its place as is known. -/
structure Diagnostic where
  message : String
  line : Option Int := none
  column : Option Int := none
  path : Option String := none
  deriving DecidableEq, Repr

namespace Diagnostic

/-- The path, if there is one, and the place in front of the message. A column counts only
within a line. -/
def text (d : Diagnostic) : String :=
  let file :=
    match d.path with
    | none | some "" => ""
    | some path => path ++ ":"
  let place :=
    match d.line, d.column with
    | none, _ => ""
    | some line, none => toString line ++ ": "
    | some line, some column => toString line ++ ":" ++ toString column ++ ": "
  file ++ place ++ d.message

end Diagnostic

/-- Why a source is refused. -/
inductive Cause where
  | unterminatedText
  | invalidEscape
  | unexpectedCharacter (c : Char)
  | inconsistentIndentation
  /-- A token of another kind stands where one of the given kind has to. -/
  | expectedKind (kind : Kind) (wanted : Wanted) (got : Lexeme)
  /-- The kind is right, and the value is not. -/
  | expectedValue (wanted : Wanted) (got : Lexeme)
  | expectedDeclaration (got : Lexeme)
  | expectedType (got : Lexeme)
  | expectedExpression (got : Lexeme)
  | duplicateSubtype (name : String)
  | duplicateField (name : String)
  | noArms
  | unclosedList
  | unclosedRecord
  | other (message : String)
  deriving Repr

/-- A condition on a value as messages show it. -/
def Wanted.shown : Wanted → String
  | any => ""
  | text s => Text.quoted s
  | bool b => Value.boolText b

/-- Whether a message about a kind leaves the condition out: there is none, or it asks for the
empty text or the truth value `False`. -/
def Wanted.isSilent : Wanted → Bool
  | any => true
  | text s => s.isEmpty
  | bool b => !b

/-- A lexeme as messages show it: its kind and its spelling. -/
def Lexeme.shown (lexeme : Lexeme) : String :=
  lexeme.kind.name ++ " " ++ Text.quoted lexeme.text

namespace Cause

/-- The wording of a cause. -/
def message : Cause → String
  | unterminatedText => "Unterminated text literal"
  | invalidEscape => "Invalid escape in text literal"
  | unexpectedCharacter c => "Unexpected character: " ++ Text.quoted c.toString
  | inconsistentIndentation => "Inconsistent indentation"
  | expectedKind kind wanted got =>
    let condition := if wanted.isSilent then "" else " " ++ wanted.shown
    "Expected " ++ kind.name ++ condition ++ ", got " ++ got.shown
  | expectedValue wanted got =>
    "Expected " ++ wanted.shown ++ ", got " ++ Text.quoted got.text
  | expectedDeclaration got => "Unexpected token: " ++ got.shown ++ ". Expected a declaration."
  | expectedType got => "Expected a type, got " ++ got.shown
  | expectedExpression got => "Expected expression, got " ++ got.shown
  | duplicateSubtype name => "Duplicate subtype " ++ Text.quoted name
  | duplicateField name => "Duplicate field " ++ Text.quoted name
  | noArms => "Case expression needs at least one arm"
  | unclosedList => "Unclosed list literal"
  | unclosedRecord => "Unclosed record literal"
  | other message => message

end Cause

/-- A cause at its place in a source. -/
structure Flaw extends Location where
  cause : Cause
  deriving Repr

/-- The report on a flaw. -/
def Flaw.diagnostic (flaw : Flaw) : Diagnostic :=
  ⟨flaw.cause.message, some flaw.line, some flaw.column, flaw.path⟩

end Slick
