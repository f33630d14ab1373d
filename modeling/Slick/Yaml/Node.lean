import Slick.Yaml.Tag
import Slick.Yaml.Token

/-!
# Nodes of a YAML text

A text holds at most one document, and a document is a graph of nodes: scalars, sequences and
mappings, each with its type and its number. An alias stands for the node with its anchor, so
that a node can occur in several places, even inside itself.
-/

namespace Slick.Yaml

/-- The number of a node in its document. -/
abbrev NodeId := Nat

/-- What a node consists of. -/
inductive Content where
  | scalar (text : Text.CodePoints)
  | sequence (items : List NodeId)
  | mapping (entries : List (NodeId × NodeId))
  deriving DecidableEq, Repr

/-- A node with its type. -/
structure Node where
  tag : Tag
  content : Content
  deriving DecidableEq, Repr

/-- A node left out, which counts as nothing. -/
def Node.empty : Node := ⟨.null, .scalar []⟩

/-- The nodes of a document by their numbers. -/
abbrev Graph := Array Node

namespace Graph

/-- The node with a number. -/
def node (graph : Graph) (id : NodeId) : Node := graph.getD id .empty

/-- The type of a node. -/
def tag (graph : Graph) (id : NodeId) : Tag := (graph.node id).tag

/-- What a node consists of. -/
def content (graph : Graph) (id : NodeId) : Content := (graph.node id).content

/-- The entries of a node, none if it is not a mapping. -/
def entries (graph : Graph) (id : NodeId) : List (NodeId × NodeId) :=
  match graph.content id with
  | .mapping entries => entries
  | _ => []

/-- Replaces what a node consists of. -/
def setContent (graph : Graph) (id : NodeId) (content : Content) : Graph :=
  graph.modify id fun node => { node with content }

/-- Replaces the type of a node. -/
def setTag (graph : Graph) (id : NodeId) (tag : Tag) : Graph :=
  graph.modify id fun node => { node with tag }

end Graph

/-- A document: its nodes and the number of its outermost one. -/
structure Document where
  graph : Graph
  root : NodeId

namespace Document

/-- The state of a reading: the remaining tokens, the nodes and the anchors so far, and what the
handles of tags stand for. -/
structure Reading where
  stream : TokenStream
  graph : Graph := #[]
  anchors : List (String × NodeId) := []
  handles : List (String × String) := []

/-- A reading of tokens. -/
abbrev Reader := StateT Reading (Except Error)

/-- The next token. Behind the last one the failure of the text shows. -/
def peek : Reader Token := do
  let stream := (← get).stream
  match stream.tokens with
  | [] => throw stream.failure
  | token :: _ => return token

/-- Consumes the next token. -/
def advance : Reader Unit :=
  modify fun r => { r with stream := { r.stream with tokens := r.stream.tokens.tail } }

/-- Refuses the text. -/
def refuse {α : Type} : Reader α := throw .malformed

/-- Consumes the given token. -/
def expect (token : Token) : Reader Unit := do
  if (← peek) = token then advance else refuse

/-- Adds a node and returns its number. -/
def add (node : Node) : Reader NodeId := do
  let id := (← get).graph.size
  modify fun r => { r with graph := r.graph.push node }
  return id

/-- Sets what a node consists of. -/
def fill (id : NodeId) (content : Content) : Reader Unit :=
  modify fun r => { r with graph := r.graph.setContent id content }

/-- A node, which is left out if one of the given tokens follows. -/
def orEmpty (ends : List Token) (node : Reader NodeId) : Reader NodeId := do
  if (← peek) ∈ ends then add .empty else node

/-- The tag that a text stands for. -/
def tagName (tag : TagText) : Reader String := do
  match tag.handle with
  | none => return tag.rest
  | some handle =>
    match (← get).handles.find? fun (known, _) => known = handle with
    | none => refuse
    | some (_, beginning) => return beginning ++ tag.rest

/-- The anchor and the tag before a node, in any order. -/
def properties : Reader (Option String × Option String) := do
  match ← peek with
  | .anchor name =>
    advance
    match ← peek with
    | .tag tag =>
      advance
      return (some name, some (← tagName tag))
    | _ => return (some name, none)
  | .tag tag =>
    advance
    match ← peek with
    | .anchor name =>
      advance
      return (some name, some (← tagName tag))
    | _ => return (none, some (← tagName tag))
  | _ => return (none, none)

/-- The type of a scalar. A lone exclamation mark asks for the type of the spelling. -/
def scalarTag (tag : Option String) (plain : Bool) (text : Text.CodePoints) : Tag :=
  match tag with
  | none => if plain then .ofPlain text.toChars else .text
  | some name => if name = "!" then .ofPlain text.toChars else .ofName name

/-- The type of a collection. -/
def collectionTag (tag : Option String) (standard : Tag) : Tag :=
  match tag with
  | none => standard
  | some name => if name = "!" then standard else .ofName name

/-- The elements of a block sequence behind its start. -/
def blockItems (node : Reader NodeId) : (fuel : Nat) → Reader (List NodeId)
  | 0 => refuse
  | fuel + 1 => do
    match ← peek with
    | .blockEntry =>
      advance
      let item ← orEmpty [.blockEntry, .blockEnd] node
      let rest ← blockItems node fuel
      return item :: rest
    | .blockEnd =>
      advance
      return []
    | _ => refuse

/-- The elements of a sequence whose dashes are not indented below the key before it. -/
def levelItems (node : Reader NodeId) : (fuel : Nat) → Reader (List NodeId)
  | 0 => refuse
  | fuel + 1 => do
    match ← peek with
    | .blockEntry =>
      advance
      let item ← orEmpty [.blockEntry, .key, .value, .blockEnd] node
      let rest ← levelItems node fuel
      return item :: rest
    | _ => return []

/-- A key and its value, either of which may be left out before one of the given tokens. -/
def entry (node : Reader NodeId) (ends : List Token) : Reader (NodeId × NodeId) := do
  advance
  let key ← orEmpty (.value :: ends) node
  if (← peek) = .value then
    advance
    return (key, ← orEmpty ends node)
  else return (key, ← add .empty)

/-- The entries of a block mapping behind its start. -/
def blockEntries (node : Reader NodeId) : (fuel : Nat) → Reader (List (NodeId × NodeId))
  | 0 => refuse
  | fuel + 1 => do
    match ← peek with
    | .key =>
      let pair ← entry node [.key, .value, .blockEnd]
      let rest ← blockEntries node fuel
      return pair :: rest
    | .blockEnd =>
      advance
      return []
    | _ => refuse

/-- The elements of a flow sequence behind its opening bracket. A key makes a mapping with a single
entry. -/
def flowItems (node : Reader NodeId) : (fuel : Nat) → (first : Bool) → Reader (List NodeId)
  | 0, _ => refuse
  | fuel + 1, first => do
    if (← peek) = .flowSequenceEnd then
      advance
      return []
    else
      if !first then expect .flowEntry
      match ← peek with
      | .flowSequenceEnd =>
        advance
        return []
      | .key =>
        let pair ← entry node [.flowEntry, .flowSequenceEnd]
        let item ← add ⟨.mapping, .mapping [pair]⟩
        let rest ← flowItems node fuel false
        return item :: rest
      | _ =>
        let item ← node
        let rest ← flowItems node fuel false
        return item :: rest

/-- The entries of a flow mapping behind its opening brace. A node without a key is a key without a
value. -/
def flowEntries (node : Reader NodeId) :
    (fuel : Nat) → (first : Bool) → Reader (List (NodeId × NodeId))
  | 0, _ => refuse
  | fuel + 1, first => do
    if (← peek) = .flowMappingEnd then
      advance
      return []
    else
      if !first then expect .flowEntry
      match ← peek with
      | .flowMappingEnd =>
        advance
        return []
      | .key =>
        let pair ← entry node [.flowEntry, .flowMappingEnd]
        let rest ← flowEntries node fuel false
        return pair :: rest
      | _ =>
        let key ← node
        let value ← add .empty
        let rest ← flowEntries node fuel false
        return (key, value) :: rest

/-- Where a node stands. -/
inductive Context where
  /-- Between flow brackets. -/
  | flow
  /-- In a block. -/
  | block
  /-- Behind a key of a block, where a sequence need not be indented. -/
  | behindKey
  deriving DecidableEq

/-- Adds a node and sets what its anchor stands for. No two nodes share an anchor. -/
def addAnchored (anchor : Option String) (node : Node) : Reader NodeId := do
  match anchor with
  | none => add node
  | some name =>
    if (← get).anchors.any fun (known, _) => known = name then refuse
    else
      let id ← add node
      modify fun r => { r with anchors := (name, id) :: r.anchors }
      return id

/-- Adds a sequence, and reads its elements once its anchor is known. -/
def sequence (anchor : Option String) (tag : Option String) (items : Reader (List NodeId)) :
    Reader NodeId := do
  let id ← addAnchored anchor ⟨collectionTag tag .sequence, .sequence []⟩
  fill id (.sequence (← items))
  return id

/-- Adds a mapping, and reads its entries once its anchor is known. -/
def mapping (anchor : Option String) (tag : Option String)
    (entries : Reader (List (NodeId × NodeId))) : Reader NodeId := do
  let id ← addAnchored anchor ⟨collectionTag tag .mapping, .mapping []⟩
  fill id (.mapping (← entries))
  return id

/-- What follows the anchor and the tag of a node, with `node` for the nodes inside it. -/
def content (node : Context → Reader NodeId) (context : Context) (fuel : Nat)
    (anchor : Option String) (tag : Option String) : Reader NodeId := do
  match ← peek with
  | .scalar text plain =>
    advance
    addAnchored anchor ⟨scalarTag tag plain text, .scalar text⟩
  | .flowSequenceStart =>
    sequence anchor tag do
      advance
      flowItems (node .flow) fuel true
  | .flowMappingStart =>
    mapping anchor tag do
      advance
      flowEntries (node .flow) fuel true
  | token =>
    if token = .blockEntry ∧ context = .behindKey then
      sequence anchor tag (levelItems (node .block) fuel)
    else if token = .blockSequenceStart ∧ context ≠ .flow then
      sequence anchor tag do
        advance
        blockItems (node .block) fuel
    else if token = .blockMappingStart ∧ context ≠ .flow then
      mapping anchor tag do
        advance
        blockEntries (node .behindKey) fuel
    else if anchor.isSome ∨ tag.isSome then
      addAnchored anchor ⟨scalarTag tag true [], .scalar []⟩
    else refuse

/-- The node that an alias stands for. -/
def aliased (name : String) : Reader NodeId := do
  match (← get).anchors.find? fun (known, _) => known = name with
  | none => refuse
  | some (_, id) => return id

/-- Reads a node, nested at most `fuel` deep. -/
def reader : (fuel : Nat) → Context → Reader NodeId
  | 0, _ => refuse
  | fuel + 1, context => do
    match ← peek with
    | .alias name =>
      advance
      aliased name
    | _ =>
      let (anchor, tag) ← properties
      content (reader fuel) context fuel anchor tag

/-- Reads the directives before a document. -/
def directives : (fuel : Nat) → (versioned : Bool) → Reader Unit
  | 0, _ => refuse
  | fuel + 1, versioned => do
    match ← peek with
    | .directive (.version major _) =>
      if versioned ∨ major ≠ 1 then refuse
      else
        advance
        directives fuel true
    | .directive (.tag handle beginning) =>
      if (← get).handles.any fun (known, _) => known = handle then refuse
      else
        advance
        modify fun r => { r with handles := (handle, beginning) :: r.handles }
        directives fuel versioned
    | .directive (.other _) =>
      advance
      directives fuel versioned
    | _ => return

/-- What the handles of tags stand for, unless a directive says otherwise. -/
def standardHandles : List (String × String) := [("!", "!"), ("!!", Tag.standard)]

/-- Reads directives and the sign behind them that starts a document. -/
def opening (fuel : Nat) : Reader Unit := do
  modify fun r => { r with handles := [] }
  directives fuel false
  modify fun r => { r with handles := r.handles ++ standardHandles }
  expect .documentStart

/-- Reads a document that starts without a sign, or behind directives and a sign. -/
def document (fuel : Nat) : Reader (Option NodeId) := do
  match ← peek with
  | .streamEnd => return none
  | .documentStart | .directive _ =>
    opening fuel
    match ← peek with
    | .directive _ | .documentStart | .documentEnd | .streamEnd => return some (← add .empty)
    | _ => return some (← reader fuel .block)
  | _ =>
    modify fun r => { r with handles := standardHandles }
    return some (← reader fuel .block)

/-- Consumes ends of documents. -/
def skipEnds : (fuel : Nat) → Reader Unit
  | 0 => refuse
  | fuel + 1 => do
    if (← peek) = .documentEnd then
      advance
      skipEnds fuel

/-- Reads the only document of a text. Another one is refused where it starts. -/
def single (fuel : Nat) : Reader (Option NodeId) := do
  let root ← document fuel
  skipEnds fuel
  if (← peek) = .streamEnd then return root
  else
    opening fuel
    refuse

/-- The document in a text, if there is one. -/
def ofText? (text : List Char) : Except Error (Option Document) := do
  let stream := TokenStream.ofText text
  let (root, reading) ← (single (stream.tokens.length + 1)).run { stream }
  return root.map fun root => ⟨reading.graph, root⟩

end Document

end Slick.Yaml
