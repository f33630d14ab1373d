/-!
# File paths

A path is an optional root and a list of parts. Empty parts and single dots are dropped, so
that different spellings of a path are shown alike; a double dot stays, since what it leads
to depends on the directories.
-/

namespace Slick

/-- A file path. -/
structure Path where
  /-- The slashes in front of an absolute path: none for a relative one, two are kept apart from
  any other number. -/
  root : String
  parts : List String
  deriving DecidableEq, Repr

namespace Path

/-- The pieces between the slashes. -/
def pieces : List Char → List (List Char)
  | [] => [[]]
  | c :: rest =>
    if c = '/' then [] :: pieces rest
    else
      match pieces rest with
      | [] => [[c]]
      | piece :: more => (c :: piece) :: more

/-- The root that a text starts with. -/
def rootOf (text : List Char) : String :=
  match (text.takeWhile (· = '/')).length with
  | 0 => ""
  | 2 => "//"
  | _ => "/"

/-- The path that a text spells. -/
def ofText (text : String) : Path :=
  ⟨rootOf text.toList,
    ((pieces text.toList).map String.ofList).filter fun part => part ≠ "" && part ≠ "."⟩

/-- A path as it is shown. The path with no parts is the present directory. -/
def toText (path : Path) : String :=
  if path.root = "" ∧ path.parts = [] then "."
  else path.root ++ "/".intercalate path.parts

end Path

end Slick
