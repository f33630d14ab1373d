import Slick.Integer
import Slick.Path
import Slick.Service

/-!
# Routes of the tree service

A request names its route by an address. Of the address only the path counts: not the host,
the query or the fragment. Steps that stay in place or go back are resolved first, then codes
that stand for characters; such codes may themselves be written by codes. Slashes at the end
do not count.
-/

namespace Slick.Service

/-- A place where the service answers. -/
inductive Route where
  | work (work : Work)
  /-- A page that describes the service. -/
  | page
  deriving DecidableEq, Repr

namespace Route

/-- The path of an address without the slashes in front of it. -/
def pathOf (address : List Char) : List Char :=
  let place := address.takeWhile fun c => c ≠ '?' && c ≠ '#'
  let path :=
    match place with
    | '/' :: '/' :: rest => rest.dropWhile (· ≠ '/')
    | _ => place
  path.dropWhile (· = '/')

/-- The steps of a path when those that stay in place or go back are resolved. The steps behind
stand in reverse. -/
def resolved (behind : List (List Char)) : List (List Char) → List (List Char)
  | [] => behind.reverse
  | step :: rest =>
    if step = ['.'] then resolved behind rest
    else if step = ['.', '.'] then resolved behind.tail rest
    else resolved (step :: behind) rest

/-- A text with the codes for characters replaced: a percent sign and two digits in base
sixteen. -/
def decoded : List Char → List Char
  | '%' :: a :: b :: rest =>
    match Integer.ofDigits? 16 [a, b] with
    | some code => Char.ofNat code :: decoded rest
    | none => '%' :: decoded (a :: b :: rest)
  | c :: rest => c :: decoded rest
  | [] => []

/-- The plain path of an address. -/
def plain (address : List Char) : List Char :=
  let steps := resolved [] (Path.pieces (pathOf address))
  let path := decoded (decoded (['/'].intercalate steps))
  '/' :: (path.reverse.dropWhile (· = '/')).reverse

/-- The routes with their paths. -/
def all : List (String × Route) :=
  [("/api/tree", work .tree), ("/api/check", work .check), ("/docs", page),
    ("/docs/oauth2-redirect", page), ("/openapi.json", page), ("/redoc", page)]

/-- The route that an address names, if there is one. -/
def ofAddress? (address : String) : Option Route :=
  let path := plain address.toList
  (all.find? fun (name, _) => name.toList == path).map Prod.snd

end Route

end Slick.Service
