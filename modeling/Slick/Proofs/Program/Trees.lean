import Slick.Proofs.Display.Injective
import Slick.Proofs.Program.Reading

/-!
# Programs with the same tree

The trees of programs carry no attributes, and a renderer shows all their nodes collapsed at first,
so that two of them are equal only if they are the same. Hence two sources that are read have equal
trees exactly if they are read as the same declarations, wherever these stand. Main statement:
`Program.trees_equal_iff`.
-/

namespace Slick

variable {path : Option String}

namespace Tree

mutual

/-- A tree as conversion makes them: nothing but names and children. -/
def Plain : Tree → Prop
  | mk _ children collapsed attributes =>
    AllPlain children ∧ collapsed = true ∧ attributes = {}

/-- Some trees as conversion makes them. -/
def AllPlain : List Tree → Prop
  | [] => True
  | tree :: rest => tree.Plain ∧ AllPlain rest

end

/-- A branch with plain children is plain. -/
theorem plain_branch {name : String} {children : List Tree} (h : AllPlain children) :
    (branch name children).Plain := ⟨h, rfl, rfl⟩

private theorem plain_under {wrapper : String} {tree : Tree} (h : tree.Plain) :
    (under wrapper tree).Plain := plain_branch ⟨h, trivial⟩

private theorem plain_leaf (label : String) : (leaf label).Plain := plain_branch trivial

/-- Plain trees one after another are all plain. -/
theorem allPlain_map {α : Type} {f : α → Tree} {items : List α}
    (h : ∀ item ∈ items, (f item).Plain) : AllPlain (items.map f) := by
  induction items with
  | nil => trivial
  | cons item items ih =>
    rw [List.forall_mem_cons] at h
    exact ⟨h.1, ih h.2⟩

private theorem plain_leaves {wrapper : String} {labels : List String} {tree : Tree}
    (h : leaves? wrapper labels = some tree) : tree.Plain := by
  unfold leaves? at h
  split at h
  · cases h
  · cases h
    exact plain_branch (allPlain_map fun label _ => plain_leaf label)

/-- A node is plain if those of its children that are there are. -/
theorem plain_node {name : String} {children : List (Option Tree)}
    (h : ∀ child ∈ children, ∀ tree ∈ child, tree.Plain) : (node name children).Plain := by
  refine plain_branch ?_
  induction children with
  | nil => trivial
  | cons child children ih =>
    rw [List.forall_mem_cons] at h
    cases child with
    | none => exact ih h.2
    | some tree => exact ⟨h.1 tree rfl, ih h.2⟩

mutual

/-- Plain trees are equal only if they are the same. -/
theorem equal_iff_of_plain : (tree tree' : Tree) → tree.Plain → tree'.Plain →
    (tree.equal tree' = true ↔ tree = tree')
  | mk name children _ _, mk name' children' _ _, ⟨hchildren, rfl, rfl⟩,
      ⟨hchildren', rfl, rfl⟩ => by
    have hsame : Attributes.same {} {} = true := rfl
    simp only [equal, Bool.and_eq_true, beq_iff_eq, hsame, and_true, mk.injEq,
      equalLists_iff_of_plain children children' hchildren hchildren']

private theorem equalLists_iff_of_plain :
    (trees trees' : List Tree) → AllPlain trees → AllPlain trees' →
    (equalLists trees trees' = true ↔ trees = trees')
  | [], [], _, _ => by simp [equalLists]
  | [], _ :: _, _, _ => by simp [equalLists]
  | _ :: _, [], _, _ => by simp [equalLists]
  | tree :: trees, tree' :: trees', h, h' => by
    simp only [equalLists, Bool.and_eq_true, equal_iff_of_plain tree tree' h.1 h'.1,
      equalLists_iff_of_plain trees trees' h.2 h'.2, List.cons.injEq]

end

end Tree

mutual

/-- The tree of an expression is plain. -/
theorem Expr.plain_shown : (e : Expr) → e.shown.Plain
  | .conditional c t e _ => ⟨⟨c.plain_shown, t.plain_shown, e.plain_shown, trivial⟩, rfl, rfl⟩
  | .binary a _ b _ =>
    ⟨⟨a.plain_shown, Tree.plain_under (Tree.plain_leaf _), b.plain_shown, trivial⟩, rfl, rfl⟩
  | .grouping inner _ =>
    ⟨⟨Tree.plain_leaf _, inner.plain_shown, Tree.plain_leaf _, trivial⟩, rfl, rfl⟩
  | .literal _ _ | .reference _ _ => Tree.plain_under (Tree.plain_leaf _)
  | .call callee arguments _ =>
    ⟨⟨callee.plain_shown, Expr.plain_shownAll arguments⟩, rfl, rfl⟩
  | .list elements _ => ⟨Expr.plain_shownAll elements, rfl, rfl⟩
  | .record fields _ => ⟨Expr.plain_shownFields fields, rfl, rfl⟩
  | .update target fields _ =>
    ⟨⟨Tree.plain_under target.plain_shown, Expr.plain_shownFields fields⟩, rfl, rfl⟩
  | .function parameters body _ => by
    refine Tree.plain_node fun child hchild tree htree => ?_
    simp only [List.mem_cons, List.not_mem_nil, or_false] at hchild
    rcases hchild with rfl | rfl
    · exact Tree.plain_leaves htree
    · cases htree
      exact Tree.plain_under body.plain_shown
  | .get object _ _ =>
    ⟨⟨Tree.plain_under object.plain_shown, Tree.plain_under (Tree.plain_leaf _), trivial⟩, rfl, rfl⟩
  | .select scrutinee arms _ =>
    ⟨⟨Tree.plain_under scrutinee.plain_shown, Arm.plain_shownAll arms⟩, rfl, rfl⟩
  | .unknown _ => Tree.plain_leaf _

private theorem Expr.plain_shownAll : (es : List Expr) → Tree.AllPlain (Expr.shownAll es)
  | [] => trivial
  | e :: es => ⟨e.plain_shown, Expr.plain_shownAll es⟩

private theorem Expr.plain_shownFields :
    (fields : List (String × Expr)) → Tree.AllPlain (Expr.shownFields fields)
  | [] => trivial
  | (_, value) :: fields =>
    ⟨Tree.plain_under value.plain_shown, Expr.plain_shownFields fields⟩

/-- The tree of an arm is plain. -/
theorem Arm.plain_shown : (arm : Arm) → arm.shown.Plain
  | .tag _ _ result _ => by
    refine Tree.plain_node fun child hchild tree htree => ?_
    simp only [List.mem_cons, List.not_mem_nil, or_false] at hchild
    rcases hchild with rfl | rfl | rfl
    · cases htree
      exact Tree.plain_under (Tree.plain_leaf _)
    · exact Tree.plain_leaves htree
    · cases htree
      exact Tree.plain_under result.plain_shown
  | .value pattern _ result _ => by
    refine Tree.plain_node fun child hchild tree htree => ?_
    simp only [List.mem_cons, List.not_mem_nil, or_false] at hchild
    rcases hchild with rfl | rfl | rfl
    · cases htree
      exact Tree.plain_under pattern.plain_shown
    · exact Tree.plain_leaves htree
    · cases htree
      exact Tree.plain_under result.plain_shown

private theorem Arm.plain_shownAll : (arms : List Arm) → Tree.AllPlain (Arm.shownAll arms)
  | [] => trivial
  | arm :: arms => ⟨arm.plain_shown, Arm.plain_shownAll arms⟩

end

/-- The tree of a declaration is plain. -/
theorem Stmt.plain_shown (stmt : Stmt) : stmt.shown.Plain := by
  cases stmt with
  | binding name e location =>
    exact Tree.plain_branch ⟨Tree.plain_under (Tree.plain_leaf _), e.plain_shown, trivial⟩
  | customType name subtypes location =>
    exact Tree.plain_branch ⟨Tree.plain_under (Tree.plain_leaf _),
      Tree.allPlain_map fun subtype _ => Tree.plain_leaf _⟩
  | unknown reason => exact Tree.plain_leaf reason.message

namespace Program

variable {keywords : Keywords} {s s' : String} {path path' : Option String} {p p' : Program}

/-- **The tree of a program loses nothing but places.** Two sources that are read have trees, and
the trees are equal exactly if the declarations of the two programs are the same once all places are
erased. -/
theorem trees_equal_iff (hp : Program.parse keywords s path = .ok p)
    (hp' : Program.parse keywords s' path' = .ok p') :
    ∃ tree tree', Source.tree keywords s path = .ok tree ∧
      Source.tree keywords s' path' = .ok tree' ∧
      (tree.equal tree' = true ↔
        p.statements.map Stmt.unplaced = p'.statements.map Stmt.unplaced) := by
  refine ⟨_, _, tree_of_parse hp, tree_of_parse hp', ?_⟩
  have hplain : ∀ stmts : List Stmt, (Tree.branch "Program" (stmts.map Stmt.shown)).Plain :=
    fun stmts => Tree.plain_branch (Tree.allPlain_map fun stmt _ => stmt.plain_shown)
  rw [Tree.equal_iff_of_plain _ _ (hplain _) (hplain _)]
  constructor
  · intro h
    exact Stmt.map_shown_injective (fun _ _ => rfl) (madeOf_of_parse hp) (madeOf_of_parse hp')
      (Tree.mk.inj h).2.1
  · intro h
    have hdisplay : Stmt.displayAll p.statements = Stmt.displayAll p'.statements := by
      rw [← Stmt.displayAll_moved _ p.statements, ← Stmt.displayAll_moved _ p'.statements]
      exact congrArg Stmt.displayAll h
    rw [Stmt.displayAll_eq_shown (madeOf_of_parse hp),
      Stmt.displayAll_eq_shown (madeOf_of_parse hp')] at hdisplay
    rw [Except.ok.inj hdisplay]

/-- The tokens of a name for a negative number, at the given columns. -/
def negativeBinding (colon minus number : Nat) : List Token :=
  [⟨⟨.ident, "x", .text "x"⟩, ⟨1, 1⟩⟩, ⟨⟨.colon, ":", .nothing⟩, ⟨1, colon⟩⟩,
    ⟨⟨.minus, "-", .nothing⟩, ⟨1, minus⟩⟩,
    ⟨⟨.number, "1.50", .decimal (.finite false 150 (-2))⟩, ⟨1, number⟩⟩,
    ⟨.newline, ⟨1, number + 4⟩⟩, ⟨.eof, ⟨2, 1⟩⟩]

private theorem ofTokens_negativeBinding (colon minus number : Nat) :
    Program.ofTokens (negativeBinding colon minus number) none =
      .ok ⟨[.binding ⟨⟨.ident, "x", .text "x"⟩, ⟨1, 1⟩⟩
        (.literal (.decimal (.finite true 150 (-2))) ⟨⟨1, minus⟩, none⟩) ⟨⟨1, 1⟩, none⟩], none⟩ :=
  rfl

/-- Blanks between the tokens change the places and leave the tree. -/
theorem trees_equal_blanks : ∃ p p' tree tree',
    Program.parse Keywords.standard "x:-1.50" none = .ok p ∧
      Program.parse Keywords.standard "x : - 1.50" none = .ok p' ∧
      Source.tree Keywords.standard "x:-1.50" none = .ok tree ∧
      Source.tree Keywords.standard "x : - 1.50" none = .ok tree' ∧ tree.equal tree' = true := by
  have htokens : tokenize Keywords.standard "x:-1.50" none = .ok (negativeBinding 2 3 4) := rfl
  have htokens' : tokenize Keywords.standard "x : - 1.50" none = .ok (negativeBinding 3 5 7) := rfl
  have hp := (parse_of_tokenize htokens).trans (ofTokens_negativeBinding 2 3 4)
  have hp' := (parse_of_tokenize htokens').trans (ofTokens_negativeBinding 3 5 7)
  obtain ⟨tree, tree', htree, htree', hequal⟩ := trees_equal_iff hp hp'
  exact ⟨_, _, tree, tree', hp, hp', htree, htree', hequal.mpr rfl⟩

end Program

end Slick
