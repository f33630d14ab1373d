import Slick.Json
import Slick.Service.Route

/-!
# Requests to the tree service

A server takes requests that carry a source text, hands the source to the handler of the route and
sends its response back. Requests that do not fit a route are turned down with a status. A refusal
quotes what was wrong with the request, so the server breaks down over what it cannot quote.
-/

namespace Slick.Service

/-- A request. -/
structure Request where
  method : String
  /-- Where the request goes. -/
  address : String
  /-- What the request carries: a JSON object whose `source` is a text, if it is in order. -/
  content : String
  deriving DecidableEq, Repr

/-- What the server answers. -/
inductive Answer where
  /-- What the handler of the route returned. -/
  | response (response : Response)
  /-- A page that describes the service. -/
  | page
  /-- The content cannot be taken in. -/
  | unreadable
  | notFound
  | methodNotAllowed
  /-- The content is not what the route asks for. -/
  | unprocessable

/-- The status of an answer. -/
def Answer.status : Answer → Nat
  | response _ => 200
  | page => 200
  | unreadable => 400
  | notFound => 404
  | methodNotAllowed => 405
  | unprocessable => 422

/-- Why the server has no answer. -/
inductive Breakdown where
  /-- A refusal would have to quote a number that is not finite. -/
  | notFinite
  /-- A refusal would have to quote half of a surrogate pair. -/
  | notText
  /-- The handler failed. -/
  | handler (error : Source.Error)
  deriving Repr

/-- What the content of a request comes to. -/
inductive Content where
  | source (text : String)
  /-- Something that has to be refused, and quoted. -/
  | wrong (quoted : Json)
  | unreadable

/-- The content under the key of the source in an object. Other entries are ignored. -/
def Content.ofEntries (entries : List (Text.CodePoints × Json)) : Content :=
  match Json.entry? (.ofChars "source".toList) entries with
  | none => .wrong (.object entries)
  | some (.string points) =>
    match points.toText? with
    | some text => .source text
    | none => .wrong (.string points)
  | some other => .wrong other

/-- The content of a request as it was sent. A text that is not JSON is refused without being
quoted. -/
def Content.ofText (text : String) : Content :=
  match Json.ofText text.toList with
  | .ok (.object entries) => .ofEntries entries
  | .ok other => .wrong other
  | .error .malformed => .wrong .null
  | .error .tooLong => .unreadable

/-- Refuses what a request carries. -/
def refuse (quoted : Json) : Except Breakdown Answer :=
  if !quoted.isFinite then .error .notFinite
  else if !quoted.isText then .error .notText
  else .ok .unprocessable

/-- Answers a request with the given handlers. -/
def answer (handlers : Handlers) (request : Request) : Except Breakdown Answer :=
  let method := request.method.toUpper
  match Route.ofAddress? request.address with
  | none => .ok .notFound
  | some .page => .ok (if method ∈ ["GET", "HEAD"] then .page else .methodNotAllowed)
  | some (.work work) =>
    if method ≠ "POST" then .ok .methodNotAllowed
    else
      match Content.ofText request.content with
      | .unreadable => .ok .unreadable
      | .wrong quoted => refuse quoted
      | .source text =>
        match handlers work text with
        | .ok response => .ok (.response response)
        | .error error => .error (.handler error)

/-- Answers requests one after another, as long as the server holds. -/
def answerAll (handlers : Handlers) (requests : List Request) : Except Breakdown (List Answer) :=
  requests.mapM (answer handlers)

end Slick.Service
