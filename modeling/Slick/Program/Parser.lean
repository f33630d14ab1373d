import Slick.Expr.Parser
import Slick.Layout
import Slick.Program
import Slick.TypeExpr.Parser

/-!
# Reading programs

A program is a sequence of declarations up to the end of the source. A declaration binds a
name or declares a type with its subtypes in an indented block.
-/

namespace Slick

open Slick.Parser

namespace Stmt

/-- A name, a colon and the expression that the name stands for. -/
def bindingForm : Parser Stmt := do
  let name ← advance
  let _ ← expect .colon
  let initializer ← Expr.block Expr.parser
  return binding name initializer (← locate name)

/-- The payload type of a subtype, which has none if its line ends. -/
def payload : Parser (Option TypeExpr) := do
  let token ← peek
  if token.kind = .newline then return none
  else
    let type ← TypeExpr.parser
    return some type

/-- One more subtype on a line of its own. -/
def subtype (subtypes : Dictionary (Option TypeExpr)) : Parser (Dictionary (Option TypeExpr)) := do
  let name ← expect .uident
  if subtypes.has name.text then refuse (.duplicateSubtype name.text) name
  else
    let type ← payload
    let _ ← expect .newline
    skipNewlines
    return subtypes.put name.text type

/-- A type with its subtypes. -/
def customTypeForm : Parser Stmt := do
  let start ← advance
  let name ← expect .uident
  let _ ← expect .colon
  let _ ← expect .newline
  skipNewlines
  let _ ← expect .indent
  let subtypes ← fold (fun token _ => token.kind ≠ .dedent && token.kind ≠ .eof) subtype []
  let _ ← expect .dedent
  return customType name subtypes (← locate start)

/-- Reads a declaration. -/
def parser : Parser Stmt := do
  let token ← peek
  if token.isWord "type" then customTypeForm
  else if token.kind = .ident then bindingForm
  else refuse (.expectedDeclaration token.toLexeme) token

end Stmt

namespace Program

/-- Reads declarations up to the end of the source. -/
def statementsForm : Parser (List Stmt) := do
  skipNewlines
  many (fun token _ => token.kind ≠ .eof) do
    let first ← Stmt.parser
    skipNewlines
    return first

/-- Reads a program. -/
def form : Parser Program := do return ⟨← statementsForm, ← Parser.path⟩

/-- The program that a whole token list spells. -/
def ofTokens (tokens : List Token) (path : Option String) : Except Failure Program :=
  match tokens.getLast? with
  | none => .ok ⟨[], path⟩
  | some last =>
    match form ⟨last, path⟩ tokens with
    | .ok program _ => .ok program
    | .fail failure _ => .error failure

/-- The program that a source text spells. -/
def parse (keywords : Keywords) (source : String) (path : Option String) :
    Except Failure Program :=
  match tokenize keywords source path with
  | .error flaw => .error (.refused flaw)
  | .ok tokens => ofTokens tokens path

end Program

end Slick
