import Slick.Expr
import Slick.TypeExpr

/-!
# Programs

A program is a list of declarations with the path of the file it stands in.
-/

namespace Slick

/-- A declaration. -/
inductive Stmt where
  /-- A name with the expression that it stands for. -/
  | binding (name : Token) (initializer : Expr) (location : Location)
  /-- A type with its subtypes, some of which carry a payload. -/
  | customType (name : Token) (subtypes : List (String × Option TypeExpr)) (location : Location)
  /-- Anything else, with the reason why it cannot be converted. -/
  | unknown (reason : Unsupported)
  deriving Repr, Inhabited

/-- The name that a declaration gives. -/
def Stmt.declaredName : Stmt → String
  | binding name _ _ => name.text
  | customType name _ _ => name.text
  | unknown _ => ""

/-- A list of declarations and the path of their file. -/
structure Program where
  statements : List Stmt
  path : Option String := none
  deriving Repr, Inhabited

end Slick
