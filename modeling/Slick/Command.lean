/-!
# Commands on files

An invocation names a command and a file, and says whether to log what is done.
-/

namespace Slick

/-- What to show of a file. -/
inductive Command where
  /-- The number and the names of the declarations. -/
  | parse
  /-- The display tree as JSON with the given indentation. -/
  | tree (indent : Int)
  /-- The display tree as indented text. -/
  | dump
  deriving DecidableEq, Repr

/-- A command on a file. -/
structure Invocation where
  /-- Whether to log what is done. -/
  verbose : Bool
  command : Command
  file : String
  deriving DecidableEq, Repr

end Slick
