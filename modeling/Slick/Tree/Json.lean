import Slick.Text.Quoted
import Slick.Tree

/-!
# Trees as JSON text

A node is an object with its name, attributes, children and flag, in that order. Every
entry and every element stands on a line of its own, indented by a chosen number of blanks
per level; empty objects and arrays stay on one line. Only the characters that JSON
does not allow in strings are escaped.
-/

namespace Slick.Tree

/-- One character inside a JSON string. -/
def jsonChar (c : Char) : List Char :=
  if c = '"' ∨ c = '\\' then ['\\', c]
  else if c = '\n' then ['\\', 'n']
  else if c = '\r' then ['\\', 'r']
  else if c = '\t' then ['\\', 't']
  else if c.toNat = 0x08 then ['\\', 'b']
  else if c.toNat = 0x0C then ['\\', 'f']
  else if c.toNat < 0x20 then '\\' :: 'u' :: Text.hexDigits 4 c.toNat
  else [c]

/-- A JSON string. -/
def jsonString (text : String) : String :=
  String.ofList ('"' :: (text.toList.flatMap jsonChar ++ ['"']))

/-- A line break and the indentation behind it. A width below zero counts as zero. -/
def jsonBreak (width : Int) (level : Nat) : String :=
  String.ofList ('\n' :: List.replicate (width.toNat * level) ' ')

/-- Parts between brackets, each on a line of its own one level deeper. -/
def jsonBlock (width : Int) (level : Nat) (opening closing : String) (parts : List String) :
    String :=
  if parts.isEmpty then opening ++ closing
  else
    opening ++ jsonBreak width (level + 1) ++
      ("," ++ jsonBreak width (level + 1)).intercalate parts ++ jsonBreak width level ++ closing

/-- An object entry. -/
def jsonEntry (key value : String) : String := jsonString key ++ ": " ++ value

mutual

/-- A tree as a JSON object at the given level. -/
def jsonAt (width : Int) (level : Nat) : Tree → String
  | mk name children collapsed attributes =>
    jsonBlock width level "\x7b" "\x7d"
      [jsonEntry "name" (jsonString name),
        jsonEntry "attributes" (jsonBlock width (level + 1) "\x7b" "\x7d"
          (attributes.entries.map fun entry => jsonEntry entry.1 (jsonString entry.2))),
        jsonEntry "children" (jsonBlock width (level + 1) "[" "]"
          (jsonList width (level + 2) children)),
        jsonEntry "collapsed" (if collapsed then "true" else "false")]

/-- Some trees as JSON objects at the given level. -/
def jsonList (width : Int) (level : Nat) : List Tree → List String
  | [] => []
  | tree :: rest => jsonAt width level tree :: jsonList width level rest

end

/-- A tree as JSON text with the given number of blanks per level. -/
def json (width : Int) (tree : Tree) : String := jsonAt width 0 tree

end Slick.Tree
