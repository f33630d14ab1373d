import Slick.Yaml.Bytes
import Slick.Yaml.Node
import Slick.Yaml.Number

/-!
# Values of a YAML document

A node denotes a value by its type. The values of scalars are made when they are first met;
collections are filled one after another in the order in which they were met, so that what is
wrong near the root shows before what is wrong further inside.

A mapping takes over the entries of the mappings under its merge keys, where its own entries count
more; of entries with equal keys the last one stays. Collections cannot be keys. Where a scalar is
expected, a mapping stands for its default value.
-/

namespace Slick.Yaml

/-- What a node denotes. Equal keys have equal values. -/
inductive Value where
  | null
  | bool (b : Bool)
  /-- An integer or a finite number of double precision, in units of `2 ^ -1074`. -/
  | number (units : Int)
  | infinite (negative : Bool)
  /-- The not-a-number that has a name, or the one that a node denotes. -/
  | nan (origin : Option NodeId)
  | text (points : Text.CodePoints)
  | bytes (bytes : List Nat)
  | instant (instant : Instant)
  /-- The sequence, mapping or set that a node makes. -/
  | collection (id : NodeId)
  deriving DecidableEq, Repr

/-- What a collection holds. -/
inductive Collection where
  | list (items : List Value)
  /-- A list of pairs. -/
  | pairs (items : List (Value × Value))
  | mapping (entries : List (Value × Value))
  | set (keys : List Value)
  deriving DecidableEq, Repr

namespace Value

/-- A value as a key. Truth values count as the numbers zero and one. -/
def key : Value → Value
  | bool b => number (if b then Binary64.one else 0)
  | value => value

/-- Whether a value can be a key. -/
def isHashable : Value → Bool
  | collection _ => false
  | _ => true

/-- The entries of a mapping after one more is written. -/
def put (key value : Value) : List (Value × Value) → List (Value × Value)
  | [] => [(key, value)]
  | (k, v) :: rest => if k.key = key.key then (k, value) :: rest else (k, v) :: put key value rest

end Value

/-- The state of the making of values. -/
structure Making where
  graph : Graph
  /-- The values that nodes are known to denote. -/
  known : List (NodeId × Value) := []
  /-- The collections in the order in which they were met. -/
  met : Array NodeId := #[]
  /-- What the collections hold that have been filled. -/
  filled : List (NodeId × Collection) := []

/-- The making of values. -/
abbrev Maker := StateT Making (Except Error)

namespace Maker

/-- The text that a node stands for where a scalar is expected, through at most `fuel` mappings. -/
def scalarText (graph : Graph) : (fuel : Nat) → NodeId → Except Error Text.CodePoints
  | 0, _ => .error .endless
  | fuel + 1, id =>
    match graph.content id with
    | .scalar text => .ok text
    | .sequence _ => .error .malformed
    | .mapping entries =>
      match entries.find? fun entry => graph.tag entry.1 = .default with
      | some (_, value) => scalarText graph fuel value
      | none => .error .malformed

/-- The value of a number that is not an integer. -/
def ofReal (id : NodeId) : Real → Value
  | .namedNaN => .nan none
  | .number .nan => .nan (some id)
  | .number (.infinite negative) => .infinite negative
  | .number (.finite units) => .number units

/-- The date or time that a text denotes. -/
def instantOf (text : List Char) : Except Error Instant :=
  match Moment.ofText? false (withoutLineFeed text) with
  | none => .error .notADate
  | some moment => if moment.exists? then .ok moment.instant else .error .outOfRange

/-- The value of a node of a scalar type. -/
def ofScalar (graph : Graph) (id : NodeId) (tag : Tag) : Except Error Value := do
  let points ← scalarText graph (graph.size + 1) id
  let chars := points.toChars
  match tag with
  | .text => return .text points
  | .null => return .null
  | .bool =>
    match Tag.truthOf? (String.ofList (chars.map Char.toLower)) with
    | some b => return .bool b
    | none => .error .notATruth
  | .int => return .number ((← integerOf chars) * Binary64.one)
  | .float => return ofReal id (← realOf chars)
  | .binary =>
    match Bytes.ofText? chars with
    | some bytes => return .bytes bytes
    | none => .error .malformed
  | .date =>
    match graph.content id with
    | .scalar _ => return .instant (← instantOf chars)
    | _ => .error .notAScalar
  | _ => .error .malformed

/-- The value of a node. A collection is noted down to be filled later. -/
def valueOf (id : NodeId) : Maker Value := do
  let state ← get
  match state.known.find? fun entry => entry.1 = id with
  | some (_, value) => return value
  | none =>
    match state.graph.tag id with
    | .sequence | .mapping | .set | .orderedMapping | .pairs =>
      let value := Value.collection id
      set { state with known := (id, value) :: state.known, met := state.met.push id }
      return value
    | .unknown | .merge | .default => throw .malformed
    | tag =>
      let value ← ofScalar state.graph id tag
      set { state with known := (id, value) :: state.known }
      return value

/-- The first entry with a merge key, and the other entries. -/
def takeMerge? (graph : Graph) :
    List (NodeId × NodeId) → Option (NodeId × List (NodeId × NodeId))
  | [] => none
  | entry :: rest =>
    if graph.tag entry.1 = .merge then some (entry.2, rest)
    else (takeMerge? graph rest).map fun (value, others) => (value, entry :: others)

/-- The number of entries with merge keys in a document. -/
def mergeCount (graph : Graph) : Nat :=
  (graph.toList.flatMap fun node =>
    match node.content with
    | .mapping entries => entries.filter fun entry => graph.tag entry.1 = .merge
    | _ => []).length

/-- Makes the default keys of a mapping ordinary ones. -/
def plainKeys (graph : Graph) (id : NodeId) : Graph :=
  (graph.entries id).foldl (fun graph entry =>
    if graph.tag entry.1 = .default then graph.setTag entry.1 .text else graph) graph

/-- The entries to take over from a node under a merge key, once `flatten` has dealt with the merge
keys in it. Of several mappings the first counts most, and so comes last. -/
def entriesToMerge (flatten : NodeId → Maker Unit) (id : NodeId) :
    Maker (List (NodeId × NodeId)) := do
  let entriesOf := fun (id : NodeId) => do
    match (← get).graph.content id with
    | .mapping _ =>
      flatten id
      return (← get).graph.entries id
    | _ => throw .malformed
  match (← get).graph.content id with
  | .sequence items => return (← items.mapM entriesOf).reverse.flatten
  | _ => entriesOf id

/-- Replaces the merge keys of a mapping by what it takes over, which comes before its own entries.
Each merge key is struck out before its value is looked at, so that there are fewer of them each
time, even in a mapping that takes itself over. -/
def flatten : (fuel : Nat) → NodeId → Maker Unit
  | 0, _ => throw .endless
  | fuel + 1, id => do
    let graph := (← get).graph
    match takeMerge? graph (graph.entries id) with
    | none => modify fun s => { s with graph := plainKeys s.graph id }
    | some (value, others) =>
      modify fun s => { s with graph := s.graph.setContent id (.mapping others) }
      let taken ← entriesToMerge (flatten fuel) value
      flatten fuel id
      modify fun s =>
        { s with graph := s.graph.setContent id (.mapping (taken ++ s.graph.entries id)) }

/-- The entries of a mapping as values. -/
def entryValues (entries : List (NodeId × NodeId)) : Maker (List (Value × Value)) :=
  entries.foldlM (fun written (keyId, valueId) => do
    let key ← valueOf keyId
    if !key.isHashable then throw .malformed
    let value ← valueOf valueId
    return Value.put key value written) []

/-- The entries of a node that has to be a mapping. -/
def mappingEntries (id : NodeId) : Maker (List (Value × Value)) := do
  match (← get).graph.content id with
  | .mapping _ =>
    flatten (mergeCount (← get).graph + 1) id
    entryValues ((← get).graph.entries id)
  | _ => throw .malformed

/-- The pair of values in a node that has to be a mapping with a single entry. -/
def pairOf (id : NodeId) : Maker (Value × Value) := do
  match (← get).graph.content id with
  | .mapping [(keyId, valueId)] =>
    let key ← valueOf keyId
    let value ← valueOf valueId
    return (key, value)
  | _ => throw .malformed

/-- What a collection holds. -/
def collectionOf (id : NodeId) : Maker Collection := do
  let node := (← get).graph.node id
  match node.tag, node.content with
  | .mapping, _ => return .mapping (← mappingEntries id)
  | .set, _ => return .set ((← mappingEntries id).map Prod.fst)
  | .sequence, .sequence items => return .list (← items.mapM valueOf)
  | _, .sequence items => return .pairs (← items.mapM pairOf)
  | _, _ => throw .malformed

/-- Fills the collections from a place on, of which there are at most `fuel`. -/
def fillFrom (index : Nat) : (fuel : Nat) → Maker Unit
  | 0 => return
  | fuel + 1 => do
    match (← get).met[index]? with
    | none => return
    | some id =>
      let collection ← collectionOf id
      modify fun s => { s with filled := (id, collection) :: s.filled }
      fillFrom (index + 1) fuel

end Maker

/-- A value with what all collections in it hold. -/
structure Data where
  root : Value := .null
  collections : List (NodeId × Collection) := []

namespace Data

/-- What a value holds, if it is a collection. -/
def collection? (data : Data) : Value → Option Collection
  | .collection id => (data.collections.find? fun entry => entry.1 = id).map Prod.snd
  | _ => none

/-- Whether a value counts as absent: nothing, false, zero, or empty. -/
def isBlank (data : Data) (value : Value) : Bool :=
  match value, data.collection? value with
  | .null, _ => true
  | .bool b, _ => !b
  | .number units, _ => units = 0
  | .text points, _ => points.isEmpty
  | .bytes bytes, _ => bytes.isEmpty
  | _, some (.list items) => items.isEmpty
  | _, some (.pairs items) => items.isEmpty
  | _, some (.mapping entries) => entries.isEmpty
  | _, some (.set keys) => keys.isEmpty
  | _, _ => false

/-- The data that a document denotes. -/
def ofDocument (document : Document) : Except Error Data := do
  let make : Maker Value := do
    let root ← Maker.valueOf document.root
    Maker.fillFrom 0 document.graph.size
    return root
  let (root, making) ← make.run { graph := document.graph }
  return ⟨root, making.filled⟩

/-- The data of the document in a text; a text without a document denotes nothing. -/
def ofText (text : List Char) : Except Error Data := do
  match ← Document.ofText? text with
  | none => return {}
  | some document => ofDocument document

end Data

end Slick.Yaml
