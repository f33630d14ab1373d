import Slick.Proofs.Display.Legible
import Slick.Proofs.Program.Trees

/-!
# Dumps of programs

The tree of a source is legible and carries nothing but names, so that its dump loses nothing: two
sources have the same dump exactly if they have the same tree. Main statement:
`Tree.dump_determines`.
-/

namespace Slick

namespace Tree

mutual

/-- Plain trees hold nothing but names. -/
theorem outline_of_plain : (tree : Tree) → tree.Plain → tree.outline = tree
  | mk name children _ _, ⟨hchildren, rfl, rfl⟩ => by
    rw [outline, outlines_of_plain children hchildren, branch]

private theorem outlines_of_plain : (trees : List Tree) → AllPlain trees → outlines trees = trees
  | [], _ => rfl
  | tree :: trees, h => by
    rw [outlines, outline_of_plain tree h.1, outlines_of_plain trees h.2]

end

end Tree

namespace Source

variable {keywords : Keywords} {source : String} {path : Option String} {result : Tree}

/-- What conversion makes is plain. -/
theorem plain_tree (h : tree keywords source path = .ok result) : result.Plain := by
  obtain ⟨program, hparse, -⟩ := tree_eq_ok_iff.mp h
  obtain rfl := Except.ok.inj (h.symm.trans (Program.tree_of_parse hparse))
  exact Tree.plain_branch (Tree.allPlain_map fun stmt _ => stmt.plain_shown)

/-- **The tree of a source is legible.** -/
theorem legible_tree (h : tree keywords source path = .ok result) : result.Legible := by
  obtain ⟨program, hparse, -⟩ := tree_eq_ok_iff.mp h
  obtain rfl := Except.ok.inj (h.symm.trans (Program.tree_of_parse hparse))
  refine Tree.legible_branch fun child hchild => ?_
  obtain ⟨stmt, hstmt, rfl⟩ := List.mem_map.mp hchild
  exact Stmt.legible_shown (Program.madeOf_of_parse hparse stmt hstmt)

end Source

/-- **The dump of a tree determines its names and their nesting.** If no name holds a line feed or
starts with a space, the lines of the dump show the nodes one by one, in the lexicographic order of
their addresses, each indented by two spaces per level; the tree of names is read back from them,
and so no other tree of names has this dump. The trees of sources are such trees, and of two of them
with the same dump one equals the other. -/
theorem Tree.dump_determines :
    (∀ tree : Tree, tree.Legible →
      (∃ nodes : List (List Nat × String), (nodes.map Prod.fst).Pairwise (· < ·) ∧
        (∀ address name, (address, name) ∈ nodes ↔
          ∃ subtree, tree.subtreeAt? address = some subtree ∧ subtree.name = name) ∧
        Text.lines tree.dump.toList = nodes.map
          (fun node => List.replicate (2 * node.1.length) ' ' ++ node.2.toList) ++ [[]]) ∧
      Tree.ofDump? tree.dump = some tree.outline ∧
      ∀ tree' : Tree, tree'.Legible →
        (tree.dump = tree'.dump ↔ tree.outline = tree'.outline)) ∧
    ∀ keywords source path tree, Source.tree keywords source path = .ok tree →
      tree.Legible ∧
      ∀ keywords' source' path' tree', Source.tree keywords' source' path' = .ok tree' →
        (tree.dump = tree'.dump ↔ tree.equal tree' = true) := by
  constructor
  · intro tree htree
    refine ⟨⟨tree.nodes, nodes_ascend tree, mem_nodes_iff tree, lines_dump htree⟩,
      ofDump?_dump htree, fun tree' htree' => dump_eq_iff htree htree'⟩
  · intro keywords source path tree htree
    refine ⟨Source.legible_tree htree, fun keywords' source' path' tree' htree' => ?_⟩
    have hplain := Source.plain_tree htree
    have hplain' := Source.plain_tree htree'
    rw [dump_eq_iff (Source.legible_tree htree) (Source.legible_tree htree'),
      outline_of_plain tree hplain, outline_of_plain tree' hplain',
      equal_iff_of_plain tree tree' hplain hplain']

/-- The tree of a declaration of a text. -/
def Tree.namedText (s : String) : Tree :=
  .branch "Program" [.branch "Binding Declaration" [.under "Binding Name" (.leaf "x"),
    .branch "Literal Expression" [.leaf (Value.quotedText s)]]]

/-- A text that is written as a literal and given the name `x`. -/
theorem Source.tree_namedText {keywords : Keywords} (hx : "x" ∉ keywords) {s : String}
    (hreturn : '\r' ∉ (Value.quotedText s).toList) (path : Option String) :
    Source.tree keywords ("x : " ++ Value.quotedText s) path = .ok (.namedText s) :=
  Program.tree_of_parse
    (Program.parse_literal (Lexeme.written_text s) (.inr (.inl rfl)) hreturn hx path)

/-- A text with a line feed and two blanks behind it. -/
theorem Tree.dump_determines_escaped : ∃ tree,
    Source.tree Keywords.standard "x : '\\n  a'" none = .ok tree ∧
      tree.dump = "Program\n  Binding Declaration\n    Binding Name\n      x\n" ++
        "    Literal Expression\n      '\\n  a'\n" ∧
      tree.Legible ∧ Tree.ofDump? tree.dump = some tree.outline := by
  have hsource : "x : " ++ Value.quotedText "\n  a" = "x : '\\n  a'" := by decide
  have htree := Source.tree_namedText (by decide : "x" ∉ Keywords.standard)
    (by decide : '\r' ∉ (Value.quotedText "\n  a").toList) none
  rw [hsource] at htree
  have hlegible := (dump_determines.2 _ _ _ _ htree).1
  exact ⟨_, htree, by decide, hlegible, (dump_determines.1 _ hlegible).2.1⟩

end Slick
