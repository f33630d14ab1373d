import Slick.Source

/-!
# The tree service

The service works on sources: one handler returns the display tree of a program and the other only
checks it. A flaw in the source is an ordinary response. How a source reaches a handler and how a
response gets back is not the concern of this module.
-/

namespace Slick.Service

/-- What the service does with a source. -/
inductive Work where
  | tree | check
  deriving DecidableEq, Repr

/-- What every response says: whether the source is in order, and the text of its flaw if not. -/
structure Verdict where
  ok : Bool
  error : Option String := none
  deriving DecidableEq, Repr

/-- The verdict on a source with its tree, if it has one. -/
structure TreeResponse extends Verdict where
  tree : Option Tree := none

/-- The verdict on a source with the number of its declarations. -/
structure CheckResponse extends Verdict where
  statements : Nat := 0
  deriving DecidableEq, Repr

/-- What a handler returns. -/
inductive Response where
  | tree (response : TreeResponse)
  | check (response : CheckResponse)

/-- The verdict of a response. -/
def Response.verdict : Response → Verdict
  | tree response => response.toVerdict
  | check response => response.toVerdict

/-- The path under which flaws of a source are reported. -/
def path : String := "editor"

/-- Responds with the display tree of a source. -/
def treeOf (keywords : Keywords) (source : String) : Except Source.Error TreeResponse :=
  match Source.tree keywords source (some path) with
  | .ok tree => .ok { ok := true, tree := some tree }
  | .error (.failed (.refused flaw)) => .ok { ok := false, error := some flaw.diagnostic.text }
  | .error error => .error error

/-- Responds with the number of declarations in a source. -/
def checkOf (keywords : Keywords) (source : String) : Except Source.Error CheckResponse :=
  match Program.parse keywords source (some path) with
  | .ok program => .ok { ok := true, statements := program.statements.length }
  | .error (.refused flaw) => .ok { ok := false, error := some flaw.diagnostic.text }
  | .error failure => .error (.failed failure)

/-- A handler for each kind of work. -/
abbrev Handlers := Work → String → Except Source.Error Response

/-- The handlers of the service. -/
def handlers (keywords : Keywords) : Handlers
  | .tree, source => (treeOf keywords source).map .tree
  | .check, source => (checkOf keywords source).map .check

end Slick.Service
