import Slick.Dictionary

/-!
# Display trees

A display tree is a named node with children, a flag for renderers that starts out set, and
attributes. Two trees are equal when they agree in all four, where attributes are compared
without regard to their order. The key of a tree lists its attributes in the order of their
keys, so that equal trees have one key.
-/

namespace Slick

/-- Attributes of a node: text values under distinct keys. -/
structure Attributes where
  entries : Dictionary String := []
  nodup : (entries.map Prod.fst).Nodup := by simp
  deriving DecidableEq

namespace Attributes

/-- The attributes left by writing the entries one after another. -/
def ofEntries (entries : List (String × String)) : Attributes :=
  ⟨.ofEntries entries, Dictionary.keys_ofEntries_nodup entries⟩

/-- Whether two nodes have the same attributes, in whatever order. -/
def same (a b : Attributes) : Bool :=
  a.entries.length == b.entries.length &&
    a.entries.all fun entry => b.entries.find? entry.1 == some entry.2

/-- The entries in the order of their keys. -/
def sorted (a : Attributes) : List (String × String) :=
  a.entries.mergeSort fun x y => decide (x.1 ≤ y.1)

instance : Inhabited Attributes := ⟨{}⟩

end Attributes

/-- A display tree. -/
inductive Tree where
  | mk (name : String) (children : List Tree) (collapsed : Bool) (attributes : Attributes)

namespace Tree

/-- A node with the given name and children, as conversion makes them. -/
def branch (name : String) (children : List Tree) : Tree := mk name children true {}

instance : Inhabited Tree := ⟨branch "" []⟩

/-- The name of the root. -/
def name : Tree → String
  | mk name _ _ _ => name

/-- The children of the root. -/
def children : Tree → List Tree
  | mk _ children _ _ => children

/-- Whether a renderer shows the root collapsed at first. -/
def collapsed : Tree → Bool
  | mk _ _ collapsed _ => collapsed

/-- The attributes of the root. -/
def attributes : Tree → Attributes
  | mk _ _ _ attributes => attributes

/-- A node without children. -/
def leaf (label : String) : Tree := branch label []

/-- A tree as the only child of a node. -/
def under (wrapper : String) (tree : Tree) : Tree := branch wrapper [tree]

/-- One leaf per label as the children of a node, which is left out if there are no labels. -/
def leaves? (wrapper : String) (labels : List String) : Option Tree :=
  if labels.isEmpty then none else some (branch wrapper (labels.map leaf))

/-- A node whose omitted children are dropped. -/
def node (name : String) (children : List (Option Tree)) : Tree :=
  branch name (children.filterMap id)

mutual

/-- Equality of trees, with attributes in any order. -/
def equal : Tree → Tree → Bool
  | mk name children collapsed attributes, mk name' children' collapsed' attributes' =>
    name == name' && equalLists children children' && collapsed == collapsed' &&
      attributes.same attributes'

/-- Equality of lists of trees. -/
def equalLists : List Tree → List Tree → Bool
  | [], [] => true
  | tree :: rest, tree' :: rest' => equal tree tree' && equalLists rest rest'
  | _, _ => false

end

/-- The number of different trees in a list. -/
def countDistinct : List Tree → Nat
  | [] => 0
  | tree :: rest =>
    if rest.any (equal tree) then countDistinct rest else countDistinct rest + 1

/-- What identifies a tree: its parts with attributes in the order of their keys. -/
inductive Key where
  | mk (name : String) (children : List Key) (collapsed : Bool) (items : List (String × String))

mutual

/-- The key of a tree. -/
def key : Tree → Key
  | mk name children collapsed attributes =>
    .mk name (keys children) collapsed attributes.sorted

/-- The keys of some trees. -/
def keys : List Tree → List Key
  | [] => []
  | tree :: rest => key tree :: keys rest

end

namespace Key

mutual

/-- Equality of keys. -/
def equal : Key → Key → Bool
  | mk name children collapsed items, mk name' children' collapsed' items' =>
    name == name' && equalLists children children' && collapsed == collapsed' && items == items'

/-- Equality of lists of keys. -/
def equalLists : List Key → List Key → Bool
  | [], [] => true
  | key :: rest, key' :: rest' => equal key key' && equalLists rest rest'
  | _, _ => false

end

mutual

private theorem equal_iff : (a b : Key) → (equal a b = true ↔ a = b)
  | mk name children collapsed items, mk name' children' collapsed' items' => by
    simp only [equal, Bool.and_eq_true, beq_iff_eq, equalLists_iff children children', mk.injEq,
      and_assoc]

private theorem equalLists_iff : (a b : List Key) → (equalLists a b = true ↔ a = b)
  | [], [] => by simp [equalLists]
  | [], _ :: _ => by simp [equalLists]
  | _ :: _, [] => by simp [equalLists]
  | a :: as, b :: bs => by
    simp only [equalLists, Bool.and_eq_true, equal_iff a b, equalLists_iff as bs, List.cons.injEq]

end

instance : DecidableEq Key := fun a b => decidable_of_iff _ (equal_iff a b)

end Key

/-- A branch has the name it is made with. -/
@[simp] theorem name_branch (name : String) (children : List Tree) :
    (branch name children).name = name := rfl

/-- A branch has the children it is made with. -/
@[simp] theorem children_branch (name : String) (children : List Tree) :
    (branch name children).children = children := rfl

end Tree

end Slick
