import Slick.Token

/-!
# Expressions

The expressions of the language with the locations where they start; a binary expression is
located at its operator. Names are kept as the tokens that spell them. Trees that were put
together by hand may hold something `unknown` where an expression should be, and their forms may
lack a token.
-/

namespace Slick

/-- Why something cannot be converted. -/
inductive Unsupported where
  /-- There is no rule for a form, or for the named forms. -/
  | noRule (variant : String)
  /-- A form lacks a token that its rule shows. -/
  | noToken
  deriving DecidableEq, Repr

mutual

/-- An expression. -/
inductive Expr where
  | conditional (condition thenBranch elseBranch : Expr) (location : Location)
  | binary (left : Expr) (operator : Token) (right : Expr) (location : Location)
  /-- An expression in parentheses. -/
  | grouping (inner : Expr) (location : Location)
  | literal (value : Value) (location : Location)
  /-- The use of a name. -/
  | reference (name : Token) (location : Location)
  | call (callee : Expr) (arguments : List Expr) (location : Location)
  | list (elements : List Expr) (location : Location)
  | record (fields : List (String × Expr)) (location : Location)
  /-- A copy of a record with some fields replaced. -/
  | update (target : Expr) (fields : List (String × Expr)) (location : Location)
  | function (parameters : List Token) (body : Expr) (location : Location)
  /-- The access to a field of a record. -/
  | get (object : Expr) (name : Token) (location : Location)
  /-- A choice between arms by the value of the scrutinee. -/
  | select (scrutinee : Expr) (arms : List Arm) (location : Location)
  /-- Anything else, with the reason why it cannot be converted. -/
  | unknown (reason : Unsupported)

/-- An arm of a choice. -/
inductive Arm where
  /-- Taken for values of the subtype, whose contents the parameters name. -/
  | tag (subtype : Token) (parameters : List Token) (result : Expr) (location : Location)
  /-- Taken for values equal to the pattern. -/
  | value (pattern : Expr) (parameters : List Token) (result : Expr) (location : Location)

end

deriving instance Repr, Inhabited for Expr

deriving instance Repr, Inhabited for Arm

/-- An arm from the parts of one that was put together by hand. A subtype makes it a tag arm,
whatever the pattern. -/
def Arm.ofParts (subtype : Option Token) (pattern : Expr) (parameters : List Token) (result : Expr)
    (location : Location) : Arm :=
  match subtype with
  | some subtype => .tag subtype parameters result location
  | none => .value pattern parameters result location

end Slick
