import Slick.Parser
import Slick.TypeExpr

/-!
# Reading types

A type is a name followed by arguments, where an argument is a name or a type in
parentheses. Parentheses around a whole type are dropped.
-/

namespace Slick.TypeExpr

open Slick.Parser

/-- An argument of a type, with `type` for what stands in parentheses. -/
def argument (type : Parser TypeExpr) : Parser TypeExpr := do
  let token ← peek
  if token.kind = .lparen then type
  else
    let name ← advance
    return .mk name.text []

/-- A type, with `type` for what stands in parentheses. -/
def form (type : Parser TypeExpr) : Parser TypeExpr := do
  let token ← peek
  if token.kind = .lparen then
    let _ ← advance
    let inner ← type
    let _ ← expect .rparen
    return inner
  else
    let name ← advance
    if name.kind = .uident ∨ name.kind = .ident then
      let arguments ← many (fun token _ => token.kind.startsType) (argument type)
      return .mk name.text arguments
    else refuse (.expectedType name.toLexeme) name

/-- Reads a type. -/
def parser : Parser TypeExpr := fix (fun again _ => form (again ())) ()

end Slick.TypeExpr
