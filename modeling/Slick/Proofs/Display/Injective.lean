import Mathlib.Data.List.Forall2
import Slick.Proofs.Display.Labels
import Slick.Proofs.Display.Shown
import Slick.Proofs.Program.Places

/-!
# Trees lose nothing but places

Two programs that are made of the lexemes of sources and have the same tree are the same up to
places. The name of a node tells the form of an expression; where parts are left out without a
trace, the names of the other children tell which ones. Main statement:
`Stmt.map_shown_injective`.
-/

namespace Slick

namespace Tree

/-- Labels that may be absent, and a last child, can be told from the children of a node. -/
theorem leaves_injective {wrapper : String} {labels labels' : List String} {last last' : Tree}
    (h : [leaves? wrapper labels, some last].filterMap id =
      [leaves? wrapper labels', some last'].filterMap id) : labels = labels' ∧ last = last' := by
  have hleaf : Function.Injective leaf := by
    intro label label' heq
    simpa [leaf, branch] using heq
  cases labels with
  | nil =>
    cases labels' with
    | nil => simpa [leaves?] using h
    | cons => simp [leaves?] at h
  | cons label labels =>
    cases labels' with
    | nil => simp [leaves?] at h
    | cons label' labels' =>
      simp only [leaves?, List.isEmpty_cons, Bool.false_eq_true, if_false, List.filterMap_cons, id,
        List.filterMap_nil, branch, List.cons.injEq, mk.injEq, true_and, and_true] at h
      exact ⟨List.map_injective_iff.mpr hleaf h.1, h.2⟩

/-- The same with one more child in front. -/
theorem node_injective {name wrapper : String} {labels labels' : List String}
    {first first' last last' : Tree}
    (h : node name [some first, leaves? wrapper labels, some last] =
      node name [some first', leaves? wrapper labels', some last']) :
    first = first' ∧ labels = labels' ∧ last = last' := by
  have hchildren : first :: [leaves? wrapper labels, some last].filterMap id =
      first' :: [leaves? wrapper labels', some last'].filterMap id := (mk.inj h).2.1
  rw [List.cons.injEq] at hchildren
  exact ⟨hchildren.1, leaves_injective hchildren.2⟩

end Tree

/-- The change takes all locations to one and the same. -/
def Move.Erases (move : Move) : Prop :=
  ∀ location location' : Location, location.moved move = location'.moved move

/-- A change that takes all locations to one takes all places to one. -/
theorem Move.Erases.place {move : Move} (h : move.Erases) (place place' : Position) :
    move.place place = move.place place' :=
  congrArg Location.toPosition (h ⟨place, .none⟩ ⟨place', .none⟩)

variable {keywords : Keywords} {m : Move}

/-- A key of a record is not the label of its target. -/
theorem IsKey.ne_target {key : String} (h : IsKey (Lexeme.Known keywords) key) :
    key ≠ "Target Record" := by
  rintro rfl
  obtain ⟨lexeme, hknown, hkind, htext⟩ := h
  have hword := hknown.isWord (.inl hkind)
  rw [htext] at hword
  have hblank := hword.2 ' ' (by decide)
  rw [Word.isPart_blank] at hblank
  cases hblank

/-- Names with the same spelling are the same up to places. -/
theorem Token.moved_of_text (hm : m.Erases) {token token' : Token}
    (hknown : Lexeme.Known keywords token.toLexeme)
    (hknown' : Lexeme.Known keywords token'.toLexeme)
    (hkind : token.kind = .ident ∨ token.kind = .uident)
    (hkind' : token'.kind = .ident ∨ token'.kind = .uident) (h : token.text = token'.text) :
    token.moved m = token'.moved m := by
  rw [Token.moved, Token.moved, Token.toLexeme_of_text hknown hknown' hkind hkind' h,
    hm.place token.toPosition token'.toPosition]

private theorem Token.map_moved_of_text (hm : m.Erases)
    {tokens tokens' : List Token}
    (hnames : ∀ token ∈ tokens, token.IsName (Lexeme.Known keywords))
    (hnames' : ∀ token ∈ tokens', token.IsName (Lexeme.Known keywords))
    (h : tokens.map (·.text) = tokens'.map (·.text)) :
    tokens.map (Token.moved m) = tokens'.map (Token.moved m) := by
  rw [← List.forall₂_eq_eq_eq, List.forall₂_map_left_iff, List.forall₂_map_right_iff] at h ⊢
  induction h with
  | nil => exact .nil
  | @cons token token' tokens tokens' htext _ ih =>
    rw [List.forall_mem_cons] at hnames hnames'
    exact .cons (Token.moved_of_text hm hnames.1.1 hnames'.1.1 (.inl hnames.1.2)
      (.inl hnames'.1.2) htext) (ih hnames.2 hnames'.2)

/-- Operators are no marks of the layout and no literals. -/
theorem Grammar.Level.plain_operator {level : Level} {token : Token}
    (h : level.isOperator token = true) :
    token.kind.isLayout = false ∧ token.kind ≠ .number ∧ token.kind ≠ .text := by
  cases level with
  | disjunction | conjunction =>
    rw [(Lexeme.isWord_iff.mp h).1]
    exact ⟨rfl, nofun, nofun⟩
  | comparison | sum | product =>
    simp only [isOperator] at h
    cases hkind : token.kind <;> simp_all [Kind.isComparison, Kind.isAdditive,
      Kind.isMultiplicative, Kind.isLayout]

mutual

/-- An expression is determined by its tree, up to places. -/
theorem Expr.shown_injective (hm : m.Erases) :
    (e e' : Expr) → e.MadeOf (Lexeme.Known keywords) → e'.MadeOf (Lexeme.Known keywords) →
      e.shown = e'.shown → e.moved m = e'.moved m
  | .conditional c t e p, other, hmade, hmade', h => by
    cases other with
    | conditional c' t' e' p' =>
      simp only [Expr.shown, Tree.branch, Tree.mk.injEq, List.cons.injEq, true_and, and_true] at h
      rw [Expr.moved, Expr.moved, c.shown_injective hm c' hmade.1 hmade'.1 h.1,
        t.shown_injective hm t' hmade.2.1 hmade'.2.1 h.2.1,
        e.shown_injective hm e' hmade.2.2 hmade'.2.2 h.2.2, hm p p']
    | unknown => exact hmade'.elim
    | _ => simp [Expr.shown, Tree.branch, Tree.node] at h
  | .binary a operator b p, other, hmade, hmade', h => by
    cases other with
    | binary a' operator' b' p' =>
      obtain ⟨ha, hb, hknown, level, hoperator⟩ := hmade
      obtain ⟨ha', hb', hknown', level', hoperator'⟩ := hmade'
      simp only [Expr.shown, Tree.branch, Tree.under, Tree.leaf, Tree.mk.injEq, List.cons.injEq,
        true_and, and_true] at h
      have hlexeme := hknown.eq_of_text hknown' (Grammar.Level.plain_operator hoperator)
        (Grammar.Level.plain_operator hoperator') h.2.1
      rw [Expr.moved, Expr.moved, a.shown_injective hm a' ha ha' h.1,
        b.shown_injective hm b' hb hb' h.2.2, hm p p', Token.moved, Token.moved, hlexeme,
        hm.place operator.toPosition operator'.toPosition]
    | unknown => exact hmade'.elim
    | _ => simp [Expr.shown, Tree.branch, Tree.node] at h
  | .grouping inner p, other, hmade, hmade', h => by
    cases other with
    | grouping inner' p' =>
      simp only [Expr.shown, Tree.branch, Tree.mk.injEq, List.cons.injEq, true_and, and_true] at h
      rw [Expr.moved, Expr.moved, inner.shown_injective hm inner' hmade hmade' h, hm p p']
    | unknown => exact hmade'.elim
    | _ => simp [Expr.shown, Tree.branch, Tree.node] at h
  | .literal value p, other, hmade, hmade', h => by
    cases other with
    | literal value' p' =>
      simp only [Expr.shown, Tree.branch, Tree.leaf, Tree.mk.injEq, List.cons.injEq, true_and,
        and_true] at h
      rw [Expr.moved, Expr.moved,
        Value.toText_injective (Value.MadeOf.isSimple hmade) (Value.MadeOf.isSimple hmade') h,
        hm p p']
    | unknown => exact hmade'.elim
    | _ => simp [Expr.shown, Tree.branch, Tree.node] at h
  | .reference name p, other, hmade, hmade', h => by
    cases other with
    | reference name' p' =>
      simp only [Expr.shown, Tree.branch, Tree.leaf, Tree.mk.injEq, List.cons.injEq, true_and,
        and_true] at h
      rw [Expr.moved, Expr.moved, Token.moved_of_text hm hmade.1 hmade'.1 hmade.2 hmade'.2 h,
        hm p p']
    | unknown => exact hmade'.elim
    | _ => simp [Expr.shown, Tree.branch, Tree.node] at h
  | .call callee arguments p, other, hmade, hmade', h => by
    cases other with
    | call callee' arguments' p' =>
      simp only [Expr.shown, Tree.branch, Tree.mk.injEq, List.cons.injEq, true_and, and_true] at h
      rw [Expr.moved, Expr.moved, callee.shown_injective hm callee' hmade.1 hmade'.1 h.1,
        Expr.shownAll_injective hm arguments arguments' hmade.2 hmade'.2 h.2, hm p p']
    | unknown => exact hmade'.elim
    | _ => simp [Expr.shown, Tree.branch, Tree.node] at h
  | .list elements p, other, hmade, hmade', h => by
    cases other with
    | list elements' p' =>
      simp only [Expr.shown, Tree.branch, Tree.mk.injEq, true_and, and_true] at h
      rw [Expr.moved, Expr.moved, Expr.shownAll_injective hm elements elements' hmade hmade' h,
        hm p p']
    | unknown => exact hmade'.elim
    | _ => simp [Expr.shown, Tree.branch, Tree.node] at h
  | .record fields p, other, hmade, hmade', h => by
    cases other with
    | record fields' p' =>
      simp only [Expr.shown, Tree.branch, Tree.mk.injEq, true_and, and_true] at h
      rw [Expr.moved, Expr.moved, Expr.shownFields_injective hm fields fields' hmade hmade' h,
        hm p p']
    | update target' fields' p' =>
      -- The target would be a field with a blank in its key.
      cases fields with
      | nil => simp [Expr.shown, Expr.shownFields, Tree.branch] at h
      | cons field fields =>
        obtain ⟨key, value⟩ := field
        simp only [Expr.shown, Expr.shownFields, Tree.branch, Tree.under, Tree.mk.injEq,
          List.cons.injEq, true_and, and_true] at h
        exact absurd h.1.1 hmade.1.ne_target
    | unknown => exact hmade'.elim
    | _ => simp [Expr.shown, Tree.branch, Tree.node] at h
  | .update target fields p, other, hmade, hmade', h => by
    cases other with
    | update target' fields' p' =>
      simp only [Expr.shown, Tree.branch, Tree.under, Tree.mk.injEq, List.cons.injEq, true_and,
        and_true] at h
      rw [Expr.moved, Expr.moved, target.shown_injective hm target' hmade.1 hmade'.1 h.1,
        Expr.shownFields_injective hm fields fields' hmade.2 hmade'.2 h.2, hm p p']
    | record fields' p' =>
      cases fields' with
      | nil => simp [Expr.shown, Expr.shownFields, Tree.branch] at h
      | cons field' fields' =>
        obtain ⟨key', value'⟩ := field'
        simp only [Expr.shown, Expr.shownFields, Tree.branch, Tree.under, Tree.mk.injEq,
          List.cons.injEq, true_and, and_true] at h
        exact absurd h.1.1.symm hmade'.1.ne_target
    | unknown => exact hmade'.elim
    | _ => simp [Expr.shown, Tree.branch, Tree.node] at h
  | .function parameters body p, other, hmade, hmade', h => by
    cases other with
    | function parameters' body' p' =>
      simp only [Expr.shown, Tree.node, Tree.branch, Tree.mk.injEq, true_and, and_true] at h
      obtain ⟨hnames, hbody⟩ := Tree.leaves_injective h
      simp only [Tree.under, Tree.branch, Tree.mk.injEq, List.cons.injEq, true_and, and_true]
        at hbody
      rw [Expr.moved, Expr.moved, Token.map_moved_of_text hm hmade.1 hmade'.1 hnames,
        body.shown_injective hm body' hmade.2 hmade'.2 hbody, hm p p']
    | unknown => exact hmade'.elim
    | _ => simp [Expr.shown, Tree.branch, Tree.node] at h
  | .get object name p, other, hmade, hmade', h => by
    cases other with
    | get object' name' p' =>
      obtain ⟨hobject, hknown, hkind⟩ := hmade
      obtain ⟨hobject', hknown', hkind'⟩ := hmade'
      simp only [Expr.shown, Tree.branch, Tree.under, Tree.leaf, Tree.mk.injEq, List.cons.injEq,
        true_and, and_true, String.append_left_inj, String.append_right_inj] at h
      rw [Expr.moved, Expr.moved, object.shown_injective hm object' hobject hobject' h.1,
        Token.moved_of_text hm hknown hknown' (.inl hkind) (.inl hkind') h.2, hm p p']
    | unknown => exact hmade'.elim
    | _ => simp [Expr.shown, Tree.branch, Tree.node] at h
  | .select scrutinee arms p, other, hmade, hmade', h => by
    cases other with
    | select scrutinee' arms' p' =>
      simp only [Expr.shown, Tree.branch, Tree.under, Tree.mk.injEq, List.cons.injEq, true_and,
        and_true] at h
      rw [Expr.moved, Expr.moved, scrutinee.shown_injective hm scrutinee' hmade.1 hmade'.1 h.1,
        Arm.shownAll_injective hm arms arms' hmade.2 hmade'.2 h.2, hm p p']
    | unknown => exact hmade'.elim
    | _ => simp [Expr.shown, Tree.branch, Tree.node] at h
  | .unknown _, _, hmade, _, _ => hmade.elim

private theorem Expr.shownAll_injective (hm : m.Erases) :
    (es es' : List Expr) → Expr.AllMadeOf (Lexeme.Known keywords) es →
      Expr.AllMadeOf (Lexeme.Known keywords) es' → Expr.shownAll es = Expr.shownAll es' →
      Expr.movedAll m es = Expr.movedAll m es'
  | [], [], _, _, _ => rfl
  | [], _ :: _, _, _, h => by simp [Expr.shownAll] at h
  | _ :: _, [], _, _, h => by simp [Expr.shownAll] at h
  | e :: es, e' :: es', hmade, hmade', h => by
    simp only [Expr.shownAll, List.cons.injEq] at h
    rw [Expr.movedAll, Expr.movedAll, e.shown_injective hm e' hmade.1 hmade'.1 h.1,
      Expr.shownAll_injective hm es es' hmade.2 hmade'.2 h.2]

private theorem Expr.shownFields_injective (hm : m.Erases) :
    (fields fields' : List (String × Expr)) → Expr.FieldsMadeOf (Lexeme.Known keywords) fields →
      Expr.FieldsMadeOf (Lexeme.Known keywords) fields' →
      Expr.shownFields fields = Expr.shownFields fields' →
      Expr.movedFields m fields = Expr.movedFields m fields'
  | [], [], _, _, _ => rfl
  | [], (_, _) :: _, _, _, h => by simp [Expr.shownFields] at h
  | (_, _) :: _, [], _, _, h => by simp [Expr.shownFields] at h
  | (key, value) :: fields, (key', value') :: fields', hmade, hmade', h => by
    simp only [Expr.shownFields, Tree.under, Tree.branch, Tree.mk.injEq, List.cons.injEq,
      and_true] at h
    rw [Expr.movedFields, Expr.movedFields, h.1.1,
      value.shown_injective hm value' hmade.2.1 hmade'.2.1 h.1.2,
      Expr.shownFields_injective hm fields fields' hmade.2.2 hmade'.2.2 h.2]

/-- An arm is determined by its tree, up to places. -/
theorem Arm.shown_injective (hm : m.Erases) :
    (arm arm' : Arm) → arm.MadeOf (Lexeme.Known keywords) → arm'.MadeOf (Lexeme.Known keywords) →
      arm.shown = arm'.shown → arm.moved m = arm'.moved m
  | .tag subtype parameters result p, other, hmade, hmade', h => by
    cases other with
    | tag subtype' parameters' result' p' =>
      obtain ⟨⟨hknown, hkind⟩, hnames, hresult⟩ := hmade
      obtain ⟨⟨hknown', hkind'⟩, hnames', hresult'⟩ := hmade'
      rw [Arm.shown, Arm.shown] at h
      obtain ⟨hsubtype, hparameters, hlast⟩ := Tree.node_injective h
      simp only [Tree.under, Tree.leaf, Tree.branch, Tree.mk.injEq, List.cons.injEq, true_and,
        and_true] at hsubtype hlast
      rw [Arm.moved, Arm.moved,
        Token.moved_of_text hm hknown hknown' (.inr hkind) (.inr hkind') hsubtype,
        Token.map_moved_of_text hm hnames hnames' hparameters,
        result.shown_injective hm result' hresult hresult' hlast, hm p p']
    | value => simp [Arm.shown, Tree.node, Tree.branch, Tree.under] at h
  | .value pattern parameters result p, other, hmade, hmade', h => by
    cases other with
    | tag => simp [Arm.shown, Tree.node, Tree.branch, Tree.under] at h
    | value pattern' parameters' result' p' =>
      obtain ⟨hpattern, rfl, hresult⟩ := hmade
      obtain ⟨hpattern', rfl, hresult'⟩ := hmade'
      rw [Arm.shown, Arm.shown] at h
      obtain ⟨hvalue, -, hlast⟩ := Tree.node_injective h
      simp only [Tree.under, Tree.branch, Tree.mk.injEq, List.cons.injEq, true_and, and_true]
        at hvalue hlast
      rw [Arm.moved, Arm.moved, pattern.shown_injective hm pattern' hpattern hpattern' hvalue,
        result.shown_injective hm result' hresult hresult' hlast, hm p p']

private theorem Arm.shownAll_injective (hm : m.Erases) :
    (arms arms' : List Arm) → Arm.AllMadeOf (Lexeme.Known keywords) arms →
      Arm.AllMadeOf (Lexeme.Known keywords) arms' → Arm.shownAll arms = Arm.shownAll arms' →
      Arm.movedAll m arms = Arm.movedAll m arms'
  | [], [], _, _, _ => rfl
  | [], _ :: _, _, _, h => by simp [Arm.shownAll] at h
  | _ :: _, [], _, _, h => by simp [Arm.shownAll] at h
  | arm :: arms, arm' :: arms', hmade, hmade', h => by
    simp only [Arm.shownAll, List.cons.injEq] at h
    rw [Arm.movedAll, Arm.movedAll, arm.shown_injective hm arm' hmade.1 hmade'.1 h.1,
      Arm.shownAll_injective hm arms arms' hmade.2 hmade'.2 h.2]

end

private theorem Stmt.subtypes_injective {subtypes subtypes' : List (String × Option TypeExpr)}
    (hmade : ∀ subtype ∈ subtypes, SubtypeMadeOf (Lexeme.Known keywords) subtype)
    (hmade' : ∀ subtype ∈ subtypes', SubtypeMadeOf (Lexeme.Known keywords) subtype)
    (h : subtypes.map (fun subtype => Tree.leaf (subtypeLabel subtype)) =
      subtypes'.map fun subtype => Tree.leaf (subtypeLabel subtype)) : subtypes = subtypes' := by
  rw [← List.forall₂_eq_eq_eq, List.forall₂_map_left_iff, List.forall₂_map_right_iff] at h
  induction h with
  | nil => rfl
  | cons hleaf _ ih =>
    rw [List.forall_mem_cons] at hmade hmade'
    have hlabel := (Tree.mk.inj hleaf).1
    rw [subtypeLabel_injective hmade.1 hmade'.1 hlabel, ih hmade.2 hmade'.2]

/-- A declaration is determined by its tree, up to places. -/
theorem Stmt.shown_injective (hm : m.Erases) {stmt stmt' : Stmt}
    (hmade : stmt.MadeOf (Lexeme.Known keywords)) (hmade' : stmt'.MadeOf (Lexeme.Known keywords))
    (h : stmt.shown = stmt'.shown) : stmt.moved m = stmt'.moved m := by
  cases stmt with
  | binding name e p =>
    cases stmt' with
    | binding name' e' p' =>
      obtain ⟨⟨hknown, hkind⟩, he⟩ := hmade
      obtain ⟨⟨hknown', hkind'⟩, he'⟩ := hmade'
      simp only [Stmt.shown, Tree.branch, Tree.under, Tree.leaf, Tree.mk.injEq, List.cons.injEq,
        true_and, and_true] at h
      rw [Stmt.moved, Stmt.moved,
        Token.moved_of_text hm hknown hknown' (.inl hkind) (.inl hkind') h.1,
        e.shown_injective hm e' he he' h.2, hm p p']
    | customType => simp [Stmt.shown, Tree.branch] at h
    | unknown => exact hmade'.elim
  | customType name subtypes p =>
    cases stmt' with
    | binding => simp [Stmt.shown, Tree.branch] at h
    | customType name' subtypes' p' =>
      obtain ⟨⟨hknown, hkind⟩, hsubtypes⟩ := hmade
      obtain ⟨⟨hknown', hkind'⟩, hsubtypes'⟩ := hmade'
      simp only [Stmt.shown, Tree.branch, Tree.under, Tree.leaf, Tree.mk.injEq, List.cons.injEq,
        true_and, and_true] at h
      rw [Stmt.moved, Stmt.moved,
        Token.moved_of_text hm hknown hknown' (.inr hkind) (.inr hkind') h.1,
        Stmt.subtypes_injective hsubtypes hsubtypes' h.2, hm p p']
    | unknown => exact hmade'.elim
  | unknown => exact hmade.elim

/-- **Declarations are determined by their trees, up to places.** -/
theorem Stmt.map_shown_injective (hm : m.Erases)
    {stmts stmts' : List Stmt}
    (hmade : ∀ stmt ∈ stmts, stmt.MadeOf (Lexeme.Known keywords))
    (hmade' : ∀ stmt ∈ stmts', stmt.MadeOf (Lexeme.Known keywords))
    (h : stmts.map Stmt.shown = stmts'.map Stmt.shown) :
    stmts.map (Stmt.moved m) = stmts'.map (Stmt.moved m) := by
  rw [← List.forall₂_eq_eq_eq, List.forall₂_map_left_iff, List.forall₂_map_right_iff] at h ⊢
  induction h with
  | nil => exact .nil
  | cons hshown _ ih =>
    rw [List.forall_mem_cons] at hmade hmade'
    exact .cons (Stmt.shown_injective hm hmade.1 hmade'.1 hshown) (ih hmade.2 hmade'.2)

end Slick
