import Slick.Program

/-!
# Nodes put together by hand

A node that was put together by hand may lack a token where one has to stand. Conversion works
through such a node up to the gap and fails there, so a node with a gap is kept as the parts in
front of the gap and the gap itself.
-/

namespace Slick

namespace Expr

/-- A form that lacks the token behind the given parts. -/
def lacking (parts : List Expr) : Expr := .list (parts ++ [.unknown .noToken]) default

/-- A form made with the given tokens, or one that lacks them behind the given parts. -/
def needing {α : Type} (tokens : Option α) (parts : List Expr) (make : α → Expr) : Expr :=
  match tokens with
  | some tokens => make tokens
  | none => lacking parts

/-- A binary expression from its parts. The operator is looked at behind the left operand. -/
def binaryOfParts (left : Expr) (operator : Option Token) (right : Expr) (location : Location) :
    Expr :=
  needing operator [left] fun operator => .binary left operator right location

/-- The use of a name from its parts. -/
def referenceOfParts (name : Option Token) (location : Location) : Expr :=
  needing name [] fun name => .reference name location

/-- A function from its parts. The parameters are looked at in front of the body. -/
def functionOfParts (parameters : List (Option Token)) (body : Expr) (location : Location) : Expr :=
  needing (parameters.mapM id) [] fun parameters => .function parameters body location

/-- The access to a field from its parts. The name is looked at behind the record. -/
def getOfParts (object : Expr) (name : Option Token) (location : Location) : Expr :=
  needing name [object] fun name => .get object name location

end Expr

namespace Arm

/-- Something that is no arm, or an arm whose subtype is no token. -/
def lacking : Arm := .value (.lacking []) [] default default

/-- An arm from its parts. The parameters are looked at in front of the result. -/
def ofDraft (subtype : Option Token) (pattern : Expr) (parameters : List (Option Token))
    (result : Expr) (location : Location) : Arm :=
  match parameters.mapM id with
  | some parameters => .ofParts subtype pattern parameters result location
  | none => .ofParts subtype pattern [] (.lacking []) location

end Arm

namespace Stmt

/-- A declaration made with its name, or one that lacks it. The name is looked at first. -/
def named (name : Option Token) (make : Token → Stmt) : Stmt :=
  match name with
  | some name => make name
  | none => .unknown .noToken

end Stmt

end Slick
