import Slick.Text.Lines
import Slick.Token.Word
import Slick.Yaml.Value

/-!
# Keyword files

The reserved words can be listed in a YAML file: a mapping from headings to lists of words.
Values that are not lists and words that are not texts are ignored, and a file without
content reserves nothing.
-/

namespace Slick.Keywords

/-- Why a keyword file cannot be used. -/
inductive FileError where
  | yaml (error : Yaml.Error)
  /-- The file holds something, but not a mapping. -/
  | notAMapping
  deriving DecidableEq, Repr

/-- The words in a list under a heading. -/
def wordsIn (data : Yaml.Data) (value : Yaml.Value) : List Text.CodePoints :=
  match data.collection? value with
  | some (.list items) => items.filterMap fun
    | .text word => some word
    | _ => none
  | _ => []

/-- The words that the data in a file reserve. -/
def ofData (data : Yaml.Data) : Except FileError (List Text.CodePoints) :=
  match data.collection? data.root with
  | some (.mapping entries) => .ok (entries.flatMap fun entry => wordsIn data entry.2)
  | _ => if data.isBlank data.root then .ok [] else .error .notAMapping

/-- The words that the content of a file reserves. Without a file the standard ones count. -/
def ofFile : Option String → Except FileError (List Text.CodePoints)
  | none => .ok (standard.map fun word => .ofChars word.toList)
  | some content =>
    match Yaml.Data.ofText (Text.universalNewlines content.toList) with
    | .error error => .error (.yaml error)
    | .ok data => ofData data

/-- The different words in ascending order. -/
def sorted (words : List Text.CodePoints) : List Text.CodePoints :=
  words.eraseDups.mergeSort Text.CodePoints.isAtMost

/-- The words that can occur in a program: those that are made of characters. -/
def ofWords (words : List Text.CodePoints) : Keywords := words.filterMap (·.toText?)

end Slick.Keywords
