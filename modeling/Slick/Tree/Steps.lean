import Slick.Tree.Dump

/-!
# Working on trees step by step

A bench holds one place for each step taken so far, with the tree that the step made or with
nothing. A step finds the trees that it works on by their places. Trees are values: a step that
would change a tree fails, and what is on the bench stays as it is.
-/

namespace Slick.Tree

/-- What the steps so far have made. -/
abbrev Bench := List (Option Tree)

/-- One step. Places count from zero, and negative ones from the end. -/
inductive Step where
  | leaf (label : String) (wrapper : Option String)
  | leaves (labels : List String) (wrapper : String)
  /-- A node from trees and omitted children. -/
  | node (name : String) (children : List (Option Int))
  /-- A node with all its parts. -/
  | make (name : String) (children : List Int) (collapsed : Bool)
    (attributes : List (String × String))
  | dump (place : Int)
  | equal (place place' : Int)
  /-- Compares keys, and with them hashes. -/
  | sameKey (place place' : Int)
  /-- Counts the different trees. -/
  | distinct (places : List Int)
  | setName (place : Int) (name : String)
  | setAttribute (place : Int) (key value : String)

/-- What a step yields. -/
inductive StepResult where
  | made (tree : Option Tree)
  | text (text : String)
  | bool (b : Bool)
  | count (n : Nat)

/-- Why a step fails. -/
inductive StepError where
  /-- There is no such place. -/
  | noPlace
  /-- There is no tree in that place. -/
  | noTree
  /-- The parts of a tree cannot be replaced. -/
  | frozen
  /-- The attributes of a tree cannot be written to. -/
  | readOnly
  deriving DecidableEq, Repr

namespace Bench

/-- What stands in a place. -/
def at? (bench : Bench) (place : Int) : Except StepError (Option Tree) :=
  let index := if place < 0 then place + bench.length else place
  if index < 0 then .error .noPlace
  else
    match bench[index.toNat]? with
    | none => .error .noPlace
    | some found => .ok found

/-- The tree in a place. -/
def treeAt (bench : Bench) (place : Int) : Except StepError Tree := do
  match ← bench.at? place with
  | none => .error .noTree
  | some tree => return tree

/-- Whether two places hold equal trees, or nothing both. -/
def same : Option Tree → Option Tree → Bool
  | none, none => true
  | some tree, some tree' => tree.equal tree'
  | _, _ => false

/-- Takes one step. -/
def step (bench : Bench) : Step → Except StepError StepResult
  | .leaf label none => return .made (some (.leaf label))
  | .leaf label (some wrapper) => return .made (some (.under wrapper (.leaf label)))
  | .leaves labels wrapper => return .made (Tree.leaves? wrapper labels)
  | .node name children => do
    let children ← children.mapM fun place =>
      match place with
      | none => pure none
      | some place => bench.at? place
    return .made (some (.node name children))
  | .make name children collapsed attributes => do
    let children ← children.mapM bench.treeAt
    return .made (some (.mk name children collapsed (.ofEntries attributes)))
  | .dump place => do return .text (← bench.treeAt place).dump
  | .equal place place' => do return .bool (same (← bench.at? place) (← bench.at? place'))
  | .sameKey place place' => do
    return .bool (decide ((← bench.at? place).map key = (← bench.at? place').map key))
  | .distinct places => do
    let found ← places.mapM bench.at?
    -- All empty places count as one.
    let empty := if found.any Option.isNone then 1 else 0
    return .count (countDistinct (found.filterMap id) + empty)
  | .setName place _ => do
    let _ ← bench.treeAt place
    .error .frozen
  | .setAttribute place _ _ => do
    let _ ← bench.treeAt place
    .error .readOnly

/-- The bench behind a step. -/
def after (bench : Bench) (result : Except StepError StepResult) : Bench :=
  match result with
  | .ok (.made tree) => bench ++ [tree]
  | _ => bench ++ [none]

end Bench

end Slick.Tree
