import Mathlib.Data.List.Lex
import Slick.Proofs.Text.Runs
import Slick.Text.Lines
import Slick.Tree.Dump

/-!
# Reading the dump of a tree

The dump of a tree has one line per node, depth first. A node is named by its address, which lists
the children to go down through from the root; depth first is the lexicographic order of addresses,
and the length of an address is the depth of its node. A dump is read from its last line to its
first: each line takes the trees behind it that stand deeper as its children. Names without line
feeds and without a space in front are read back as they are. Main statements: `Tree.lines_dump`
and `Tree.ofDump?_dump`.
-/

namespace Slick.Tree

/-- A name that fills one line and can be told from the indentation in front of it. -/
def LegibleName (name : String) : Prop :=
  '\n' ∉ name.toList ∧ name.toList.head? ≠ some ' '

instance (name : String) : Decidable (LegibleName name) :=
  inferInstanceAs (Decidable (_ ∧ _))

/-- A tree all of whose names are legible. -/
inductive Legible : Tree → Prop where
  | mk {name : String} {children : List Tree} {collapsed : Bool} {attributes : Attributes} :
    LegibleName name → (∀ child ∈ children, Legible child) →
    Legible (.mk name children collapsed attributes)

mutual

/-- The names of a tree and nothing else: flags and attributes are as conversion makes them. -/
def outline : Tree → Tree
  | mk name children _ _ => branch name (outlines children)

/-- The names of some trees. -/
def outlines : List Tree → List Tree
  | [] => []
  | tree :: rest => tree.outline :: outlines rest

end

/-! ### One line per node -/

/-- The subtree at an address. -/
def subtreeAt? (tree : Tree) : List Nat → Option Tree
  | [] => some tree
  | index :: address => tree.children[index]?.bind fun child => child.subtreeAt? address

mutual

/-- The nodes of a tree, depth first, each with its address and its name. -/
def nodes : Tree → List (List Nat × String)
  | mk name children _ _ => ([], name) :: forestNodes 0 children

/-- The nodes of some trees, which are children from the given index on. -/
def forestNodes (index : Nat) : List Tree → List (List Nat × String)
  | [] => []
  | tree :: rest =>
    tree.nodes.map (fun node => (index :: node.1, node.2)) ++ forestNodes (index + 1) rest

end

mutual

/-- The nodes are those at the addresses of the tree. -/
theorem mem_nodes_iff : (tree : Tree) → (address : List Nat) → (name : String) →
    ((address, name) ∈ tree.nodes ↔
      ∃ subtree, tree.subtreeAt? address = some subtree ∧ subtree.name = name)
  | mk root children _ _, [], name => by
    have hdeeper : ([], name) ∉ forestNodes 0 children := by
      rw [mem_forestNodes_iff children 0 [] name]
      simp
    simp [nodes, subtreeAt?, hdeeper, Tree.name, eq_comm]
  | mk root children _ _, index :: below, name => by
    rw [nodes, List.mem_cons, mem_forestNodes_iff children 0 (index :: below) name]
    simp [subtreeAt?, Tree.children]

private theorem mem_forestNodes_iff : (trees : List Tree) → (start : Nat) → (address : List Nat) →
    (name : String) → ((address, name) ∈ forestNodes start trees ↔
      ∃ offset below subtree, address = (start + offset) :: below ∧
        (trees[offset]?.bind fun child => child.subtreeAt? below) = some subtree ∧
        subtree.name = name)
  | [], start, address, name => by simp [forestNodes]
  | tree :: rest, start, address, name => by
    have hfirst : (address, name) ∈ tree.nodes.map (fun node => (start :: node.1, node.2)) ↔
        ∃ below subtree, address = start :: below ∧ tree.subtreeAt? below = some subtree ∧
          subtree.name = name := by
      simp only [List.mem_map, Prod.exists, Prod.mk.injEq]
      constructor
      · rintro ⟨below, _, hmem, rfl, rfl⟩
        obtain ⟨subtree, hsubtree⟩ := (mem_nodes_iff tree below _).mp hmem
        exact ⟨below, subtree, rfl, hsubtree⟩
      · rintro ⟨below, subtree, rfl, hsubtree⟩
        exact ⟨below, name, (mem_nodes_iff tree below name).mpr ⟨subtree, hsubtree⟩, rfl, rfl⟩
    rw [forestNodes, List.mem_append, hfirst, mem_forestNodes_iff rest (start + 1) address name]
    constructor
    · rintro (⟨below, subtree, haddress, hsubtree⟩ | ⟨offset, below, subtree, haddress, hsubtree⟩)
      · exact ⟨0, below, subtree, haddress, hsubtree⟩
      · exact ⟨offset + 1, below, subtree, by rw [haddress]; congr 1; omega, hsubtree⟩
    · rintro ⟨offset, below, subtree, haddress, hsubtree⟩
      cases offset with
      | zero => exact .inl ⟨below, subtree, haddress, hsubtree⟩
      | succ offset =>
        exact .inr ⟨offset, below, subtree, by rw [haddress]; congr 1; omega, hsubtree⟩

end

private theorem le_head_forestNodes {trees : List Tree} {start : Nat} {address : List Nat}
    (h : address ∈ (forestNodes start trees).map Prod.fst) :
    ∃ index below, address = index :: below ∧ start ≤ index := by
  obtain ⟨⟨address, name⟩, hmem, rfl⟩ := List.mem_map.mp h
  obtain ⟨offset, below, subtree, rfl, -⟩ := (mem_forestNodes_iff _ _ _ _).mp hmem
  exact ⟨_, below, rfl, Nat.le_add_right start offset⟩

mutual

/-- The addresses ascend: a node stands in front of what is below it, and all that is below a child
in front of the children behind it. -/
theorem nodes_ascend : (tree : Tree) → (tree.nodes.map Prod.fst).Pairwise (· < ·)
  | mk root children _ _ => by
    rw [nodes, List.map_cons, List.pairwise_cons]
    refine ⟨fun address haddress => ?_, forestNodes_ascend children 0⟩
    obtain ⟨index, below, rfl, -⟩ := le_head_forestNodes haddress
    exact List.nil_lt_cons index below

private theorem forestNodes_ascend : (trees : List Tree) → (start : Nat) →
    ((forestNodes start trees).map Prod.fst).Pairwise (· < ·)
  | [], start => by simp [forestNodes]
  | tree :: rest, start => by
    rw [forestNodes, List.map_append, List.map_map, List.pairwise_append]
    refine ⟨?_, forestNodes_ascend rest (start + 1), fun first hfirst later hlater => ?_⟩
    · have htree := nodes_ascend tree
      rw [List.pairwise_map] at htree ⊢
      exact htree.imp fun hlt => List.cons_lt_cons_self.mpr hlt
    · obtain ⟨node, -, rfl⟩ := List.mem_map.mp hfirst
      obtain ⟨index, below, rfl, hindex⟩ := le_head_forestNodes hlater
      exact List.cons_lt_cons_iff.mpr (.inl hindex)

end

mutual

/-- A dump shows the nodes in their order, each as deep as its address is long. -/
theorem dumpLines_eq_nodes : (tree : Tree) → (depth : Nat) →
    dumpLines depth tree = tree.nodes.map fun node => dumpLine (depth + node.1.length) node.2
  | mk name children _ _, depth => by
    rw [dumpLines, nodes, List.map_cons, dumpForest_eq_nodes children depth 0]
    rfl

private theorem dumpForest_eq_nodes : (trees : List Tree) → (depth start : Nat) →
    dumpForest (depth + 1) trees =
      (forestNodes start trees).map fun node => dumpLine (depth + node.1.length) node.2
  | [], depth, start => rfl
  | tree :: rest, depth, start => by
    rw [dumpForest, forestNodes, List.map_append, List.map_map,
      dumpLines_eq_nodes tree (depth + 1), dumpForest_eq_nodes rest depth (start + 1)]
    congr 1
    refine List.map_congr_left fun node _ => ?_
    rw [Function.comp_apply, List.length_cons, Nat.add_right_comm, Nat.add_assoc]

end

private theorem dumpForest_eq_flatMap (depth : Nat) (trees : List Tree) :
    dumpForest depth trees = trees.flatMap (dumpLines depth) := by
  induction trees with
  | nil => rfl
  | cons tree trees ih => rw [dumpForest, ih, List.flatMap_cons]

/-- No line of a legible tree holds a line feed. -/
theorem Legible.newline_notMem {tree : Tree} (h : tree.Legible) :
    ∀ depth, ∀ line ∈ dumpLines depth tree, '\n' ∉ line := by
  induction h with
  | mk hname _ ih =>
    intro depth line hline
    rw [dumpLines, dumpForest_eq_flatMap, List.mem_cons, List.mem_flatMap] at hline
    rcases hline with rfl | ⟨child, hchild, hline⟩
    · simp [dumpLine, hname.1]
    · exact ih child hchild (depth + 1) line hline

/-- **A dump has one line per node.** Behind the last line feed there is nothing. -/
theorem lines_dump {tree : Tree} (h : tree.Legible) :
    Text.lines tree.dump.toList = tree.nodes.map
      (fun node => List.replicate (2 * node.1.length) ' ' ++ node.2.toList) ++ [[]] := by
  rw [dump, String.toList_ofList, Text.lines_flatMap_newline (h.newline_notMem 0),
    dumpLines_eq_nodes]
  simp only [Nat.zero_add, dumpLine]

/-! ### Reading the lines -/

/-- The depth and the name that a line shows. -/
def ofDumpLine (line : List Char) : Nat × String :=
  ((line.takeWhile (· == ' ')).length / 2, String.ofList (line.dropWhile (· == ' ')))

/-- A node in front of trees that are given with the depths of their roots. The trees up to the
first one that does not stand deeper become its children. -/
def attach (node : Nat × String) (trees : List (Nat × Tree)) : List (Nat × Tree) :=
  (node.1, branch node.2 ((trees.takeWhile fun tree => node.1 < tree.1).map Prod.snd)) ::
    trees.dropWhile fun tree => node.1 < tree.1

/-- The tree that a dump shows. -/
def ofDump? (text : String) : Option Tree :=
  match ((Text.lines text.toList).dropLast.map ofDumpLine).foldr attach [] with
  | [(_, tree)] => some tree
  | _ => none

/-- The line of a legible name shows its depth and the name. -/
theorem ofDumpLine_dumpLine {name : String} (h : LegibleName name) (depth : Nat) :
    ofDumpLine (dumpLine depth name) = (depth, name) := by
  have hindent : ∀ c ∈ List.replicate (2 * depth) ' ', (c == ' ') = true := by
    intro c hc
    rw [List.eq_of_mem_replicate hc]
    rfl
  have hname : ∀ c ∈ name.toList.head?, (c == ' ') = false := by
    rintro c hc
    rw [beq_eq_false_iff_ne]
    rintro rfl
    exact h.2 hc
  rw [ofDumpLine, dumpLine, Text.takeWhile_run hindent hname, Text.dropWhile_run hindent hname,
    List.length_replicate, Nat.mul_div_cancel_left depth Nat.two_pos, String.ofList_toList]

/-- A node takes the trees that stand one level deeper and leaves those that do not. -/
theorem attach_children {depth : Nat} (name : String) (children : List Tree)
    {behind : List (Nat × Tree)} (hbehind : ∀ tree ∈ behind.head?, tree.1 ≤ depth) :
    attach (depth, name) (children.map (fun child => (depth + 1, child)) ++ behind) =
      (depth, branch name children) :: behind := by
  have hdeeper : ∀ tree ∈ children.map (fun child => (depth + 1, child)),
      decide (depth < tree.1) = true := by
    intro tree htree
    obtain ⟨child, -, rfl⟩ := List.mem_map.mp htree
    exact decide_eq_true (Nat.lt_succ_self depth)
  have hstop : ∀ tree ∈ behind.head?, decide (depth < tree.1) = false := by
    intro tree htree
    exact decide_eq_false (Nat.not_lt.mpr (hbehind tree htree))
  rw [attach, Text.takeWhile_run hdeeper hstop, Text.dropWhile_run hdeeper hstop, List.map_map]
  simp [Function.comp_def]

/-- If the lines of single trees are read as the trees of their names, so are those of trees that
follow one another. -/
theorem read_forest {depth : Nat} {behind : List (Nat × Tree)} (trees : List Tree)
    (hread : ∀ tree ∈ trees, ∀ behind, (∀ later ∈ behind.head?, later.1 ≤ depth) →
      ((dumpLines depth tree).map ofDumpLine).foldr attach behind =
        (depth, tree.outline) :: behind)
    (hbehind : ∀ later ∈ behind.head?, later.1 ≤ depth) :
    ((dumpForest depth trees).map ofDumpLine).foldr attach behind =
      (outlines trees).map (fun tree => (depth, tree)) ++ behind := by
  induction trees with
  | nil => rfl
  | cons tree trees ih =>
    rw [List.forall_mem_cons] at hread
    -- Behind the tree stands a sibling, or else what is behind all of them.
    have hnext : ∀ later ∈ ((outlines trees).map (fun tree => (depth, tree)) ++ behind).head?,
        later.1 ≤ depth := by
      cases trees with
      | nil => exact hbehind
      | cons next trees => simp [outlines]
    rw [dumpForest, List.map_append, List.foldr_append, ih hread.2, hread.1 _ hnext, outlines,
      List.map_cons, List.cons_append]

/-- The lines of a tree are read as the tree of its names, in front of anything that does not stand
deeper than its root. -/
theorem Legible.read {tree : Tree} (h : tree.Legible) :
    ∀ depth behind, (∀ later ∈ behind.head?, later.1 ≤ depth) →
      ((dumpLines depth tree).map ofDumpLine).foldr attach behind =
        (depth, tree.outline) :: behind := by
  induction h with
  | @mk name children _ _ hname _ ih =>
    intro depth behind hbehind
    have hforest := read_forest children (fun child hchild => ih child hchild (depth + 1))
      fun later hlater => Nat.le_succ_of_le (hbehind later hlater)
    rw [dumpLines, List.map_cons, List.foldr_cons, hforest, ofDumpLine_dumpLine hname,
      attach_children name _ hbehind, outline]

/-- **The tree of names is read back from a dump.** -/
theorem ofDump?_dump {tree : Tree} (h : tree.Legible) : ofDump? tree.dump = some tree.outline := by
  have hlines : (Text.lines tree.dump.toList).dropLast = dumpLines 0 tree := by
    rw [dump, String.toList_ofList, Text.lines_flatMap_newline (h.newline_notMem 0),
      List.dropLast_concat]
  rw [ofDump?, hlines, h.read 0 [] (by simp)]

mutual

/-- A dump shows names only. -/
theorem dumpLines_outline : (tree : Tree) → (depth : Nat) →
    dumpLines depth tree.outline = dumpLines depth tree
  | mk name children _ _, depth => by
    rw [outline, branch, dumpLines, dumpLines, dumpForest_outlines children (depth + 1)]

private theorem dumpForest_outlines : (trees : List Tree) → (depth : Nat) →
    dumpForest depth (outlines trees) = dumpForest depth trees
  | [], depth => rfl
  | tree :: trees, depth => by
    rw [outlines, dumpForest, dumpForest, dumpLines_outline tree depth,
      dumpForest_outlines trees depth]

end

/-- **Legible trees have the same dump exactly if they agree in names and children.** -/
theorem dump_eq_iff {tree tree' : Tree} (h : tree.Legible) (h' : tree'.Legible) :
    tree.dump = tree'.dump ↔ tree.outline = tree'.outline := by
  constructor
  · intro hdump
    have hread := ofDump?_dump h
    rw [hdump, ofDump?_dump h'] at hread
    exact (Option.some.inj hread).symm
  · intro houtline
    rw [dump, dump, ← dumpLines_outline tree, ← dumpLines_outline tree', houtline]

end Slick.Tree
