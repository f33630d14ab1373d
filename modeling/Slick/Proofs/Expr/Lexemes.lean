import Slick.Proofs.Decimal.Negation
import Slick.Program
import Slick.Token.Symbol

/-!
# The lexemes of an expression

One way to write an expression down: elements and fields with single commas between them, bodies
and branches on the same line, and the arms of a choice on lines of their own in an indented block.
-/

namespace Slick

/-- A reserved word. -/
def Lexeme.word (word : String) : Lexeme := ⟨.keyword, word, .text word⟩

/-- A name that starts with a small letter. -/
def Lexeme.name (name : String) : Lexeme := ⟨.ident, name, .text name⟩

/-- Lexemes with a mark for the end of their line, unless the last of them closes a block. -/
def Lexeme.endLine (lexemes : List Lexeme) : List Lexeme :=
  if ∃ lexeme ∈ lexemes.getLast?, lexeme.kind = .dedent then lexemes else lexemes ++ [newline]

/-- The lexemes of a literal. A negative number is a minus sign and a numeral. -/
def Value.lexemes : Value → List Lexeme
  | decimal d =>
    if d.isNegative then
      [Symbol.lexeme ['-'] .minus, ⟨.number, d.magnitude.toText, .decimal d.magnitude⟩]
    else [⟨.number, d.toText, .decimal d⟩]
  | bool b => [⟨.keyword, boolText b, .bool b⟩]
  | value => [⟨.text, value.toText, value⟩]

mutual

/-- The lexemes of an expression. -/
@[simp] def Expr.lexemes : Expr → List Lexeme
  | .conditional condition thenBranch elseBranch _ =>
    .word "if" :: (condition.lexemes ++ .word "then" ::
      (thenBranch.lexemes ++ .word "else" :: elseBranch.lexemes))
  | .binary left operator right _ => left.lexemes ++ operator.toLexeme :: right.lexemes
  | .grouping inner _ =>
    Symbol.lexeme ['('] .lparen :: (inner.lexemes ++ [Symbol.lexeme [')'] .rparen])
  | .literal value _ => value.lexemes
  | .reference name _ => [name.toLexeme]
  | .call callee arguments _ => callee.lexemes ++ Expr.argumentLexemes arguments
  | .list elements _ =>
    Symbol.lexeme ['['] .lbracket ::
      (Expr.elementLexemes elements ++ [Symbol.lexeme [']'] .rbracket])
  | .record fields _ =>
    Symbol.lexeme ['{'] .lbrace :: (Expr.fieldLexemes fields ++ [Symbol.lexeme ['}'] .rbrace])
  | .update target fields _ =>
    Symbol.lexeme ['{'] .lbrace :: (target.lexemes ++ Symbol.lexeme ['|'] .pipe ::
      (Expr.fieldLexemes fields ++ [Symbol.lexeme ['}'] .rbrace]))
  | .function parameters body _ =>
    Symbol.lexeme ['ƒ'] .fn ::
      (parameters.map Token.toLexeme ++ Symbol.lexeme ['→'] .arrow :: body.lexemes)
  | .get object name _ => object.lexemes ++ [Symbol.lexeme ['.'] .dot, name.toLexeme]
  | .select scrutinee arms _ =>
    .word "case" :: (scrutinee.lexemes ++ .word "of" :: .newline :: .indent ::
      (Arm.lexemesAll arms ++ [.dedent]))
  | .unknown _ => []

/-- The lexemes of the arguments of a call, side by side. -/
@[simp] def Expr.argumentLexemes : List Expr → List Lexeme
  | [] => []
  | argument :: rest => argument.lexemes ++ Expr.argumentLexemes rest

/-- The lexemes of the elements of a list, with commas between them. -/
@[simp] def Expr.elementLexemes : List Expr → List Lexeme
  | [] => []
  | [element] => element.lexemes
  | element :: next :: rest =>
    element.lexemes ++ Symbol.lexeme [','] .comma :: Expr.elementLexemes (next :: rest)

/-- The lexemes of the fields of a record, with commas between them. -/
@[simp] def Expr.fieldLexemes : List (String × Expr) → List Lexeme
  | [] => []
  | [(key, value)] => .name key :: Symbol.lexeme [':'] .colon :: value.lexemes
  | (key, value) :: next :: rest =>
    .name key :: Symbol.lexeme [':'] .colon ::
      (value.lexemes ++ Symbol.lexeme [','] .comma :: Expr.fieldLexemes (next :: rest))

/-- The lexemes of an arm. -/
@[simp] def Arm.lexemes : Arm → List Lexeme
  | .tag subtype parameters result _ =>
    subtype.toLexeme :: (parameters.map Token.toLexeme ++ Symbol.lexeme ['→'] .arrow ::
      result.lexemes)
  | .value pattern _ result _ => pattern.lexemes ++ Symbol.lexeme ['→'] .arrow :: result.lexemes

/-- The lexemes of the arms of a choice, each on a line of its own. -/
@[simp] def Arm.lexemesAll : List Arm → List Lexeme
  | [] => []
  | arm :: rest => Lexeme.endLine arm.lexemes ++ Arm.lexemesAll rest

end

end Slick
