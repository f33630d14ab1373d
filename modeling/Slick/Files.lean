import Slick.Path
import Slick.Text.Lines

/-!
# Files

What stands at a path, and a directory tree given by its files. Text files hold UTF-8, and
every kind of line break in them counts as a line feed.
-/

namespace Slick

/-- What stands at a path. -/
inductive Found where
  | nothing
  | directory
  | file (content : ByteArray)
  /-- The path or a part of it is too long to be looked up. -/
  | tooLong

/-- The text of a file, if its bytes are UTF-8. -/
def Found.decode? (content : ByteArray) : Option String :=
  (String.fromUTF8? content).map fun text => String.ofList (Text.universalNewlines text.toList)

/-- A directory tree: the files and the empty directories in it, by their parts below the
present directory. -/
structure Files where
  files : List (List String × ByteArray)
  directories : List (List String)

namespace Files

/-- The greatest number of bytes in a part of a path. -/
def longestPart : Nat := 255

/-- The greatest number of bytes in a path. -/
def longestPath : Nat := 4095

/-- Whether there is a directory with the given parts. -/
def isDirectory (tree : Files) (parts : List String) : Bool :=
  parts.isEmpty || tree.directories.any parts.isPrefixOf ||
    tree.files.any fun (file, _) => parts.isPrefixOf file && parts ≠ file

/-- What stands at the given parts, where `here` is a directory. Going up leads out of the tree,
and outside of it only directories further up are known. -/
def walk (tree : Files) : (here : Option (List String)) → List String → Found
  | none, [] => .directory
  | none, part :: rest =>
    if part = ".." then walk tree none rest
    else if longestPart < part.utf8ByteSize then .tooLong
    else .nothing
  | some _, [] => .directory
  | some here, part :: rest =>
    if part = ".." then walk tree (if here.isEmpty then none else some here.dropLast) rest
    else if longestPart < part.utf8ByteSize then .tooLong
    else
      let next := here ++ [part]
      if tree.isDirectory next then walk tree (some next) rest
      else
        match rest, tree.files.find? fun (file, _) => file = next with
        | [], some (_, content) => .file content
        | _, _ => .nothing

/-- What stands at a path. -/
def find (tree : Files) (path : Path) : Found :=
  if longestPath < path.toText.utf8ByteSize then .tooLong
  else if path.root = "" then tree.walk (some []) path.parts
  else tree.walk none path.parts

end Files

end Slick
