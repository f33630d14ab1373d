import Slick.Display
import Slick.Program.Parser

/-!
# From source text to display tree

Reading and conversion in one step. What goes wrong is either a failure of reading or a
form without a rule.
-/

namespace Slick.Source

/-- Why a source has no tree. -/
inductive Error where
  | failed (failure : Failure)
  | unsupported (error : Unsupported)
  deriving Repr

/-- The display tree of a source text. -/
def tree (keywords : Keywords) (source : String) (path : Option String) : Except Error Tree :=
  match Program.parse keywords source path with
  | .error failure => .error (.failed failure)
  | .ok program =>
    match program.display with
    | .error error => .error (.unsupported error)
    | .ok tree => .ok tree

/-- A tree comes from a program that was read and converted. -/
theorem tree_eq_ok_iff {keywords : Keywords} {source : String} {path : Option String}
    {result : Tree} :
    tree keywords source path = .ok result ↔
      ∃ program, Program.parse keywords source path = .ok program ∧
        program.display = .ok result := by
  unfold tree
  cases Program.parse keywords source path with
  | error failure => simp
  | ok program =>
    cases hdisplay : program.display with
    | error error => simp [hdisplay]
    | ok tree => simp [hdisplay]

end Slick.Source
