import Slick.Tree

/-!
# Trees as indented text

One line per node in depth-first order, indented by two blanks per level.
-/

namespace Slick.Tree

/-- The line of a node at the given depth. -/
def dumpLine (depth : Nat) (name : String) : List Char :=
  List.replicate (2 * depth) ' ' ++ name.toList

mutual

/-- The lines of a tree whose root stands at the given depth. -/
def dumpLines (depth : Nat) : Tree → List (List Char)
  | mk name children _ _ => dumpLine depth name :: dumpForest (depth + 1) children

/-- The lines of some trees whose roots stand at the given depth. -/
def dumpForest (depth : Nat) : List Tree → List (List Char)
  | [] => []
  | tree :: rest => dumpLines depth tree ++ dumpForest depth rest

end

/-- The text of a tree. Every line is closed by a line feed. -/
def dump (tree : Tree) : String :=
  String.ofList ((dumpLines 0 tree).flatMap (· ++ ['\n']))

end Slick.Tree
