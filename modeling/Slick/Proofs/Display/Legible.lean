import Slick.Proofs.Display.Injective
import Slick.Proofs.Program.NumberTexts
import Slick.Proofs.Tree.Dump

/-!
# The names in the trees of programs

Every name in the tree of a program that is made of known lexemes is legible: the names of forms are
fixed texts, and the other names show words, operators, literals and types. Text literals escape
their line feeds and stand between quotes, so that neither a line break nor a blank in a text gets
into the lines of a dump. Main statement: `Stmt.legible_shown`.
-/

namespace Slick

namespace Tree

/-- Texts that go on behind a legible name without a line feed are legible. -/
theorem LegibleName.append {name more : String} (h : LegibleName name)
    (hne : name.toList ≠ []) (hmore : '\n' ∉ more.toList) : LegibleName (name ++ more) := by
  rw [LegibleName, String.toList_append]
  constructor
  · simp [h.1, hmore]
  · rw [List.head?_append_of_ne_nil _ hne]
    exact h.2

/-- The name of a property is shown between quotes. -/
theorem LegibleName.quoted {name : String} (h : LegibleName name) :
    LegibleName ("\"" ++ name ++ "\"") := by
  have hquote : LegibleName "\"" := by decide
  rw [String.append_assoc]
  exact hquote.append (by decide) (by simp [h.1])

/-- A branch is legible if its name and its children are. -/
theorem legible_branch {name : String} {children : List Tree}
    (h : ∀ child ∈ children, child.Legible) (hname : LegibleName name := by decide) :
    (branch name children).Legible := .mk hname h

private theorem legible_leaf {label : String} (h : LegibleName label) : (leaf label).Legible :=
  legible_branch (by simp) h

private theorem legible_under {wrapper : String} {tree : Tree} (h : tree.Legible)
    (hwrapper : LegibleName wrapper := by decide) : (under wrapper tree).Legible :=
  legible_branch (by simpa using h) hwrapper

/-- Leaves under a node are legible if their labels are. -/
theorem legible_leaves {wrapper : String} {labels : List String}
    (h : ∀ label ∈ labels, LegibleName label) (hwrapper : LegibleName wrapper := by decide) :
    ∀ tree ∈ leaves? wrapper labels, tree.Legible := by
  intro tree htree
  unfold leaves? at htree
  split at htree
  · cases htree
  · cases htree
    refine legible_branch (fun child hchild => ?_) hwrapper
    obtain ⟨label, hlabel, rfl⟩ := List.mem_map.mp hchild
    exact legible_leaf (h label hlabel)

/-- A node is legible if those of its children that are there are. -/
theorem legible_node {name : String} {children : List (Option Tree)}
    (h : ∀ child ∈ children, ∀ tree ∈ child, tree.Legible)
    (hname : LegibleName name := by decide) : (node name children).Legible := by
  refine legible_branch (fun tree htree => ?_) hname
  obtain ⟨child, hchild, rfl⟩ := List.mem_filterMap.mp htree
  exact h _ hchild tree rfl

end Tree

variable {keywords : Keywords}

/-- A lexeme on one line starts with no blank. -/
theorem Lexeme.Written.legible {l : Lexeme} (h : l.Written keywords) : Tree.LegibleName l.text :=
  ⟨h.newline, fun hhead => (h.ends.head_not_blank ' ' hhead).1 rfl⟩

/-- Words and symbols are legible. -/
theorem Lexeme.Known.legible {l : Lexeme} (h : l.Known keywords)
    (hkind : l.kind.isLayout = false ∧ l.kind ≠ .number ∧ l.kind ≠ .text) :
    Tree.LegibleName l.text := by
  have hscanned : l.Scanned keywords := h.resolve_left (by simp [hkind.1])
  exact (hscanned.written hkind.2).legible

private theorem Lexeme.Known.legible_name {l : Lexeme} (h : l.Known keywords)
    (hkind : l.kind = .ident ∨ l.kind = .uident) : Tree.LegibleName l.text := by
  apply h.legible
  rcases hkind with hkind | hkind <;> rw [hkind] <;> exact ⟨rfl, nofun, nofun⟩

/-- The key of a field or of a subtype is a legible name. -/
theorem IsKey.legible {key : String} (h : IsKey (Lexeme.Known keywords) key) :
    Tree.LegibleName key := by
  obtain ⟨lexeme, hknown, hkind, rfl⟩ := h
  exact hknown.legible_name (.inl hkind)

private theorem Token.legible_names {tokens : List Token}
    (h : ∀ token ∈ tokens, token.IsName (Lexeme.Known keywords)) :
    ∀ label ∈ tokens.map (·.text), Tree.LegibleName label := by
  intro label hlabel
  obtain ⟨token, htoken, rfl⟩ := List.mem_map.mp hlabel
  obtain ⟨hknown, hkind⟩ := h token htoken
  exact hknown.legible_name (.inl hkind)

/-- Numbers, texts and truth values are legible. -/
theorem Value.IsSimple.legible {value : Value} (h : value.IsSimple) :
    Tree.LegibleName value.toText := by
  cases h with
  | decimal negative coefficient exponent =>
    refine ⟨fun hnewline => ?_, fun hhead => ?_⟩
    · rw [toText, Decimal.toText, String.toList_ofList] at hnewline
      exact (Decimal.chars_plain _ hnewline).1 rfl
    · obtain ⟨c, hc, hfirst⟩ := head_decimal negative coefficient exponent
      obtain rfl := Option.mem_unique hc hhead
      rcases hfirst with hfirst | hfirst <;> cases hfirst
  | text s =>
    have hwritten : (Lexeme.mk .text (quotedText s) (.text s)).Written [] := Lexeme.written_text s
    exact hwritten.legible
  | bool b => cases b <;> decide

/-- The label of a subtype starts with its name. -/
theorem Stmt.legible_subtypeLabel {subtype : String × Option TypeExpr}
    (h : SubtypeMadeOf (Lexeme.Known keywords) subtype) :
    Tree.LegibleName (subtypeLabel subtype) := by
  obtain ⟨name, payload⟩ := subtype
  obtain ⟨⟨lexeme, hknown, hkind, rfl⟩, hpayload⟩ := h
  have hname := hknown.legible_name (.inr hkind)
  obtain ⟨⟨c, hc, -⟩, -⟩ := hknown.isWord (.inr hkind)
  have hne : lexeme.text.toList ≠ [] := by
    rintro hnil
    rw [hnil] at hc
    cases hc
  cases payload with
  | none => exact hname
  | some type =>
    have hlabel : subtypeLabel (lexeme.text, some type) = lexeme.text ++ (" " ++ type.toText) :=
      String.append_assoc
    rw [hlabel]
    apply hname.append hne
    simpa using (TypeExpr.toText_plain (hpayload type rfl)).1

mutual

/-- The tree of an expression is legible. -/
theorem Expr.legible_shown :
    (e : Expr) → e.MadeOf (Lexeme.Known keywords) → e.shown.Legible
  | .conditional c t e _, h => by
    refine Tree.legible_branch ?_
    simp only [List.forall_mem_cons]
    exact ⟨c.legible_shown h.1, t.legible_shown h.2.1, e.legible_shown h.2.2, by simp⟩
  | .binary a operator b _, h => by
    obtain ⟨ha, hb, hknown, level, hoperator⟩ := h
    have hlabel := hknown.legible (Grammar.Level.plain_operator hoperator)
    refine Tree.legible_branch ?_
    simp only [List.forall_mem_cons]
    exact ⟨a.legible_shown ha, Tree.legible_under (Tree.legible_leaf hlabel), b.legible_shown hb,
      by simp⟩
  | .grouping inner _, h => by
    refine Tree.legible_branch ?_
    simp only [List.forall_mem_cons]
    exact ⟨Tree.legible_leaf (by decide), inner.legible_shown h, Tree.legible_leaf (by decide),
      by simp⟩
  | .literal value _, h => Tree.legible_under (Tree.legible_leaf (Value.MadeOf.isSimple h).legible)
  | .reference name _, h => Tree.legible_under (Tree.legible_leaf (h.1.legible_name h.2))
  | .call callee arguments _, h => by
    refine Tree.legible_branch ?_
    rw [List.forall_mem_cons]
    exact ⟨callee.legible_shown h.1, Expr.legible_shownAll arguments h.2⟩
  | .list elements _, h => Tree.legible_branch (Expr.legible_shownAll elements h)
  | .record fields _, h => Tree.legible_branch (Expr.legible_shownFields fields h)
  | .update target fields _, h => by
    refine Tree.legible_branch ?_
    rw [List.forall_mem_cons]
    exact ⟨Tree.legible_under (target.legible_shown h.1), Expr.legible_shownFields fields h.2⟩
  | .function parameters body _, h => by
    refine Tree.legible_node ?_
    simp only [List.forall_mem_cons, Option.mem_some_iff, forall_eq']
    exact ⟨Tree.legible_leaves (Token.legible_names h.1),
      Tree.legible_under (body.legible_shown h.2), by simp⟩
  | .get object name _, h => by
    have hname := (h.2.1.legible_name (.inl h.2.2)).quoted
    refine Tree.legible_branch ?_
    simp only [List.forall_mem_cons]
    exact ⟨Tree.legible_under (object.legible_shown h.1),
      Tree.legible_under (Tree.legible_leaf hname), by simp⟩
  | .select scrutinee arms _, h => by
    refine Tree.legible_branch ?_
    rw [List.forall_mem_cons]
    exact ⟨Tree.legible_under (scrutinee.legible_shown h.1), Arm.legible_shownAll arms h.2⟩
  | .unknown _, h => h.elim

private theorem Expr.legible_shownAll : (es : List Expr) →
    Expr.AllMadeOf (Lexeme.Known keywords) es → ∀ tree ∈ Expr.shownAll es, tree.Legible
  | [], _ => by simp [Expr.shownAll]
  | e :: es, h => by
    rw [Expr.shownAll, List.forall_mem_cons]
    exact ⟨e.legible_shown h.1, Expr.legible_shownAll es h.2⟩

private theorem Expr.legible_shownFields : (fields : List (String × Expr)) →
    Expr.FieldsMadeOf (Lexeme.Known keywords) fields →
      ∀ tree ∈ Expr.shownFields fields, tree.Legible
  | [], _ => by simp [Expr.shownFields]
  | (_, value) :: fields, h => by
    rw [Expr.shownFields, List.forall_mem_cons]
    exact ⟨Tree.legible_under (value.legible_shown h.2.1) h.1.legible,
      Expr.legible_shownFields fields h.2.2⟩

/-- An arm made of lexemes that the scanner knows has a legible tree. -/
theorem Arm.legible_shown :
    (arm : Arm) → arm.MadeOf (Lexeme.Known keywords) → arm.shown.Legible
  | .tag _ _ result _, h => by
    obtain ⟨⟨hknown, hkind⟩, hnames, hresult⟩ := h
    have hlabel := hknown.legible_name (.inr hkind)
    refine Tree.legible_node ?_
    simp only [List.forall_mem_cons, Option.mem_some_iff, forall_eq']
    exact ⟨Tree.legible_under (Tree.legible_leaf hlabel),
      Tree.legible_leaves (Token.legible_names hnames),
      Tree.legible_under (result.legible_shown hresult), by simp⟩
  | .value pattern _ result _, h => by
    obtain ⟨hpattern, rfl, hresult⟩ := h
    refine Tree.legible_node ?_
    simp only [List.forall_mem_cons, Option.mem_some_iff, forall_eq']
    exact ⟨Tree.legible_under (pattern.legible_shown hpattern), Tree.legible_leaves (by simp),
      Tree.legible_under (result.legible_shown hresult), by simp⟩

private theorem Arm.legible_shownAll : (arms : List Arm) →
    Arm.AllMadeOf (Lexeme.Known keywords) arms → ∀ tree ∈ Arm.shownAll arms, tree.Legible
  | [], _ => by simp [Arm.shownAll]
  | arm :: arms, h => by
    rw [Arm.shownAll, List.forall_mem_cons]
    exact ⟨arm.legible_shown h.1, Arm.legible_shownAll arms h.2⟩

end

/-- **The tree of a declaration is legible.** -/
theorem Stmt.legible_shown {stmt : Stmt} (h : stmt.MadeOf (Lexeme.Known keywords)) :
    stmt.shown.Legible := by
  cases stmt with
  | binding name e location =>
    obtain ⟨⟨hknown, hkind⟩, he⟩ := h
    have hlabel := hknown.legible_name (.inl hkind)
    refine Tree.legible_branch ?_
    simp only [List.forall_mem_cons]
    exact ⟨Tree.legible_under (Tree.legible_leaf hlabel), e.legible_shown he, by simp⟩
  | customType name subtypes location =>
    obtain ⟨⟨hknown, hkind⟩, hsubtypes⟩ := h
    have hlabel := hknown.legible_name (.inr hkind)
    refine Tree.legible_branch ?_
    rw [List.forall_mem_cons, List.forall_mem_map]
    refine ⟨Tree.legible_under (Tree.legible_leaf hlabel), fun subtype hsubtype => ?_⟩
    exact Tree.legible_leaf (legible_subtypeLabel (hsubtypes subtype hsubtype))
  | unknown reason => exact h.elim

end Slick
