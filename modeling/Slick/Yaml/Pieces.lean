/-!
# Pieces of scalars

Small cuts that the spellings of numbers, dates and truth values share.
-/

namespace Slick.Yaml

/-- The pieces between the occurrences of a sign. -/
def split (sign : Char) : List Char → List (List Char)
  | [] => [[]]
  | c :: rest =>
    if c = sign then [] :: split sign rest
    else
      match split sign rest with
      | [] => [[c]]
      | piece :: more => (c :: piece) :: more

/-- A text without the line feed at its end, if it has one. -/
def withoutLineFeed (text : List Char) : List Char :=
  if text.getLast? = some '\n' then text.dropLast else text

end Slick.Yaml
