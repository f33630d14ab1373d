/-!
# Types

A type is a name with arguments, which are types themselves. In its text an argument that
has arguments of its own stands in parentheses, and no other does.
-/

namespace Slick

/-- A type such as `Text` or `List (Maybe Num)`. -/
inductive TypeExpr where
  | mk (name : String) (arguments : List TypeExpr)
  deriving Repr, Inhabited

namespace TypeExpr

/-- The name of a type. -/
def name : TypeExpr → String
  | mk name _ => name

/-- The arguments of a type. -/
def arguments : TypeExpr → List TypeExpr
  | mk _ arguments => arguments

mutual

/-- A type as text. -/
def toText : TypeExpr → String
  | mk name arguments => name ++ argumentsText arguments

/-- Arguments as text, each behind a blank. -/
def argumentsText : List TypeExpr → String
  | [] => ""
  | argument :: rest => " " ++ argumentText argument ++ argumentsText rest

/-- One argument as text. -/
def argumentText : TypeExpr → String
  | mk name arguments =>
    if arguments.isEmpty then name else "(" ++ name ++ argumentsText arguments ++ ")"

end

end TypeExpr

end Slick
