import Slick.Program.Parser
import Slick.Proofs.Layout.Paths
import Slick.Proofs.Parser.Paths
import Slick.Proofs.Program.Places

/-!
# Programs under another path

Read under another path, a source gives the same program with the other path in every location, or
the same flaw under the other path: lexing and reading put the path into what they find and never
look at it. A flaw carries the path that its source is read under, and if all tokens stand at good
places, a program is refused at a good place only. Each lemma follows its production, with the
reading of the phrases inside as a hypothesis. Main statements: `Program.form_follows` and
`Program.parse_path`.
-/

namespace Slick

open Slick.Parser

variable {copies : Copies}

namespace Dictionary

variable {α β : Type}

/-- Other values under the same keys. -/
theorem has_map (f : α → β) (key : String) (dict : Dictionary α) :
    Dictionary.has key (dict.map (Prod.map id f)) = dict.has key := by
  rw [has, has, List.any_map]
  rfl

private theorem put_map (f : α → β) (key : String) (value : α) (dict : Dictionary α) :
    Dictionary.put key (f value) (dict.map (Prod.map id f)) =
      (dict.put key value).map (Prod.map id f) := by
  induction dict with
  | nil => rfl
  | cons entry rest ih =>
    obtain ⟨other, old⟩ := entry
    simp only [List.map_cons, Prod.map_apply, id, put]
    split
    · rfl
    · rw [ih]
      rfl

end Dictionary

namespace TypeExpr

variable {type : Parser TypeExpr}

private theorem argument_follows (h : type.Follows copies id) :
    (argument type).Follows copies id :=
  bind_agrees peek_agrees fun _ _ =>
    ite_alike h (bind_agrees advance_agrees fun _ _ => pure_alike rfl)

private theorem form_follows (h : type.Follows copies id) : (form type).Follows copies id := by
  refine bind_agrees peek_agrees fun _ _ => ite_alike ?_ ?_
  · refine bind_agrees advance_agrees fun _ _ => bind_follows h fun inner => ?_
    exact bind_agrees (expect_agrees _ _) fun _ _ => pure_alike rfl
  · refine bind_agrees advance_agrees fun name hname => ite_alike ?_ (refuse_alike _ hname)
    refine bind_follows (many_follows _ (argument_follows h) _) fun arguments => pure_alike ?_
    rw [List.map_id, id]

/-- A type has no locations, so it is the same under both paths. -/
theorem parser_follows : TypeExpr.parser.Follows copies id :=
  fix_follows fun _ h => form_follows h

end TypeExpr

namespace Expr

variable {expr operand : Parser Expr}

private theorem block_follows (h : expr.Follows copies (Expr.moved copies.move)) :
    (block expr).Follows copies (Expr.moved copies.move) := by
  refine bind_agrees peek_agrees fun _ _ => ite_alike h ?_
  refine bind_agrees skipNewlines_agrees fun _ _ => bind_agrees (expect_agrees _ _) fun _ _ => ?_
  refine bind_follows h fun inner => bind_agrees skipNewlines_agrees fun _ _ => ?_
  exact bind_agrees (expect_agrees _ _) fun _ _ => pure_alike rfl

private theorem functionForm_follows (h : expr.Follows copies (Expr.moved copies.move)) :
    (functionForm expr).Follows copies (Expr.moved copies.move) := by
  refine bind_agrees advance_agrees fun start _ => ?_
  refine bind_agrees (takeWhile_agrees _) fun names _ => ?_
  refine bind_agrees (expect_agrees _ _) fun _ _ => bind_follows (block_follows h) fun body => ?_
  refine bind_follows (locate_follows start) fun location => pure_alike ?_
  rw [Expr.moved, Copies.map_moved]

private theorem conditionalForm_follows (h : expr.Follows copies (Expr.moved copies.move)) :
    (conditionalForm expr).Follows copies (Expr.moved copies.move) := by
  refine bind_agrees advance_agrees fun start _ => bind_follows h fun condition => ?_
  refine bind_agrees (expect_agrees _ _) fun _ _ => ?_
  refine bind_follows (block_follows h) fun thenBranch => ?_
  refine bind_agrees skipNewlines_agrees fun _ _ => bind_agrees (expect_agrees _ _) fun _ _ => ?_
  refine bind_follows (block_follows h) fun elseBranch => ?_
  exact bind_follows (locate_follows start) fun location => pure_alike rfl

/-- Whether a value has a negative does not depend on the path. -/
private theorem negated_follows (value : Value) : (negated value).Follows copies id := by
  unfold negated
  split
  · exact pure_alike rfl
  · exact fun _ _ _ _ => .negation

private theorem listForm_follows (h : expr.Follows copies (Expr.moved copies.move)) :
    (listForm expr).Follows copies (Expr.moved copies.move) := by
  refine bind_agrees advance_agrees fun start hstart => ?_
  refine bind_agrees skipSeparators_agrees fun _ _ => ?_
  refine bind_follows (many_follows (Expr.moved copies.move)
    (bind_agrees peek_agrees fun _ _ => ?_) _) fun elements => ?_
  · refine ite_alike (refuse_alike _ hstart) (bind_follows h fun element => ?_)
    exact bind_agrees skipSeparators_agrees fun _ _ => pure_alike rfl
  · refine bind_agrees advance_agrees fun _ _ => ?_
    refine bind_follows (locate_follows start) fun location => pure_alike ?_
    rw [Expr.moved, Expr.movedAll_eq_map]

private theorem field_follows (h : expr.Follows copies (Expr.moved copies.move)) {start : Token}
    (hstart : start.At copies.good) (entries : Dictionary Expr) :
    (field expr start entries).Alike copies
      (fun d d' => d' = d.map (Prod.map id (Expr.moved copies.move)))
      (field expr start (entries.map (Prod.map id (Expr.moved copies.move)))) := by
  refine bind_agrees peek_agrees fun _ _ => ite_alike (refuse_alike _ hstart) ?_
  refine bind_agrees (expect_agrees _ _) fun key hkey => ?_
  rw [Dictionary.has_map]
  refine ite_alike (refuse_alike _ hkey) (bind_agrees (expect_agrees _ _) fun _ _ => ?_)
  refine bind_follows h fun value => bind_agrees skipSeparators_agrees fun _ _ => ?_
  exact pure_alike (Dictionary.put_map _ _ _ _)

private theorem fields_follows (h : expr.Follows copies (Expr.moved copies.move)) {start : Token}
    (hstart : start.At copies.good) :
    (fields expr start).Follows copies (List.map (Prod.map id (Expr.moved copies.move))) := by
  refine bind_agrees skipSeparators_agrees fun _ _ => ?_
  refine bind_alike (fold_follows (field_follows h hstart) _ []) ?_
  rintro entries _ rfl
  exact bind_agrees advance_agrees fun _ _ => pure_alike rfl

private theorem recordForm_follows (h : expr.Follows copies (Expr.moved copies.move)) :
    (recordForm expr).Follows copies (Expr.moved copies.move) := by
  refine bind_agrees advance_agrees fun start hstart => ?_
  refine bind_agrees skipNewlines_agrees fun _ _ => ?_
  refine bind_agrees peek_agrees fun _ _ => bind_agrees peekSecond_agrees fun _ _ => ite_alike ?_ ?_
  · refine bind_follows (fields_follows h hstart) fun entries => ?_
    refine bind_follows (locate_follows start) fun location => pure_alike ?_
    rw [Expr.moved, Expr.movedFields_eq_map]
  · refine bind_follows h fun target => bind_agrees (expect_agrees _ _) fun _ _ => ?_
    refine bind_follows (fields_follows h hstart) fun entries => ?_
    refine bind_follows (locate_follows start) fun location => pure_alike ?_
    rw [Expr.moved, Expr.movedFields_eq_map]

private theorem groupingForm_follows (h : expr.Follows copies (Expr.moved copies.move)) :
    (groupingForm expr).Follows copies (Expr.moved copies.move) := by
  refine bind_agrees advance_agrees fun start _ => bind_agrees skipNewlines_agrees fun _ _ => ?_
  refine bind_follows h fun inner => bind_agrees skipNewlines_agrees fun _ _ => ?_
  refine bind_agrees (expect_agrees _ _) fun _ _ => ?_
  exact bind_follows (locate_follows start) fun location => pure_alike rfl

private theorem primary_follows (h : expr.Follows copies (Expr.moved copies.move)) :
    (primary expr).Follows copies (Expr.moved copies.move) := by
  refine bind_agrees peek_agrees fun token htoken => bind_agrees peekSecond_agrees fun _ _ => ?_
  refine ite_alike ?_ (ite_alike ?_ (ite_alike ?_ ?_))
  · refine bind_agrees advance_agrees fun _ _ => ?_
    exact bind_follows (locate_follows token) fun location => pure_alike rfl
  · refine bind_agrees advance_agrees fun _ _ => bind_agrees advance_agrees fun numeral _ => ?_
    refine bind_follows (negated_follows numeral.value) fun value => ?_
    exact bind_follows (locate_follows token) fun location => pure_alike rfl
  · refine bind_agrees advance_agrees fun _ _ => ?_
    exact bind_follows (locate_follows token) fun location => pure_alike rfl
  · exact ite_alike (groupingForm_follows h) (ite_alike (listForm_follows h)
      (ite_alike (recordForm_follows h) (refuse_alike _ htoken)))

private theorem access_follows (h : expr.Follows copies (Expr.moved copies.move)) :
    (access expr).Follows copies (Expr.moved copies.move) := by
  refine bind_agrees peek_agrees fun start _ => bind_follows (primary_follows h) fun object => ?_
  refine fold_follows (fun object => ?_) _ object
  refine bind_agrees advance_agrees fun _ _ => bind_agrees advance_agrees fun name _ => ?_
  exact bind_follows (locate_follows start) fun location => pure_alike rfl

private theorem callForm_follows (h : expr.Follows copies (Expr.moved copies.move)) :
    (callForm expr).Follows copies (Expr.moved copies.move) := by
  refine bind_agrees peek_agrees fun start _ => bind_follows (access_follows h) fun callee => ?_
  refine bind_follows (many_follows _ (access_follows h) _) fun arguments => ?_
  rw [List.isEmpty_map]
  refine ite_alike (pure_alike rfl) (bind_follows (locate_follows start) fun location => ?_)
  refine pure_alike ?_
  rw [Expr.moved, Expr.movedAll_eq_map]

private theorem operation_follows (h : operand.Follows copies (Expr.moved copies.move))
    (left : Expr) :
    (operation operand left).Alike copies (fun e e' => e' = e.moved copies.move)
      (operation operand (left.moved copies.move)) :=
  bind_agrees advance_agrees fun operator _ => bind_follows h fun _ =>
    bind_follows (locate_follows operator) fun _ => pure_alike rfl

private theorem chain_follows (h : operand.Follows copies (Expr.moved copies.move))
    (isOperator : Token → Bool) :
    (chain isOperator operand).Follows copies (Expr.moved copies.move) :=
  bind_follows h fun first => fold_follows (operation_follows h) _ first

private theorem additive_follows (h : expr.Follows copies (Expr.moved copies.move)) :
    (additive expr).Follows copies (Expr.moved copies.move) :=
  chain_follows (chain_follows (callForm_follows h) _) _

private theorem comparison_follows (h : expr.Follows copies (Expr.moved copies.move)) :
    (comparison expr).Follows copies (Expr.moved copies.move) :=
  bind_follows (additive_follows h) fun left => bind_agrees peek_agrees fun _ _ =>
    ite_alike (operation_follows (additive_follows h) left) (pure_alike rfl)

private theorem disjunction_follows (h : expr.Follows copies (Expr.moved copies.move)) :
    (disjunction expr).Follows copies (Expr.moved copies.move) :=
  chain_follows (chain_follows (comparison_follows h) _) _

private theorem arm_follows (h : expr.Follows copies (Expr.moved copies.move)) :
    (arm expr).Follows copies (Arm.moved copies.move) := by
  refine bind_agrees peek_agrees fun start _ => ite_alike ?_ ?_
  · refine bind_agrees advance_agrees fun subtype _ => ?_
    refine bind_agrees (takeWhile_agrees _) fun names _ => ?_
    refine bind_agrees (expect_agrees _ _) fun _ _ => ?_
    refine bind_follows (block_follows h) fun result => ?_
    refine bind_follows (locate_follows start) fun location => pure_alike ?_
    rw [Arm.moved, Copies.map_moved]
    rfl
  · refine bind_follows (primary_follows h) fun pattern => ?_
    refine bind_agrees (expect_agrees _ _) fun _ _ => ?_
    refine bind_follows (block_follows h) fun result => ?_
    exact bind_follows (locate_follows start) fun location => pure_alike rfl

private theorem selectForm_follows (h : expr.Follows copies (Expr.moved copies.move)) :
    (selectForm expr).Follows copies (Expr.moved copies.move) := by
  refine bind_agrees advance_agrees fun start hstart => bind_follows h fun scrutinee => ?_
  refine bind_agrees (expect_agrees _ _) fun _ _ => bind_agrees (expect_agrees _ _) fun _ _ => ?_
  refine bind_agrees skipNewlines_agrees fun _ _ => bind_agrees (expect_agrees _ _) fun _ _ => ?_
  refine bind_follows (many_follows (Arm.moved copies.move)
    (bind_follows (arm_follows h) fun first => ?_) _) fun arms => ?_
  · exact bind_agrees skipNewlines_agrees fun _ _ => pure_alike rfl
  · refine bind_agrees (expect_agrees _ _) fun _ _ => ?_
    rw [List.isEmpty_map]
    refine ite_alike (refuse_alike _ hstart) ?_
    refine bind_follows (locate_follows start) fun location => ?_
    refine pure_alike ?_
    rw [Expr.moved, Arm.movedAll_eq_map]

private theorem form_follows (h : expr.Follows copies (Expr.moved copies.move)) :
    (form expr).Follows copies (Expr.moved copies.move) :=
  bind_agrees peek_agrees fun _ _ => ite_alike (functionForm_follows h)
    (ite_alike (conditionalForm_follows h)
      (ite_alike (selectForm_follows h) (disjunction_follows h)))

/-- An expression is the same under both paths, up to its locations. -/
theorem parser_follows : Expr.parser.Follows copies (Expr.moved copies.move) :=
  fix_follows fun _ h => form_follows h

end Expr

namespace Stmt

private theorem bindingForm_follows : bindingForm.Follows copies (Stmt.moved copies.move) := by
  refine bind_agrees advance_agrees fun name _ => bind_agrees (expect_agrees _ _) fun _ _ => ?_
  refine bind_follows (Expr.block_follows Expr.parser_follows) fun initializer => ?_
  exact bind_follows (locate_follows name) fun location => pure_alike rfl

private theorem payload_follows : payload.Follows copies id :=
  bind_agrees peek_agrees fun _ _ => ite_alike (pure_alike rfl)
    (bind_follows TypeExpr.parser_follows fun _ => pure_alike rfl)

private theorem subtype_follows (subtypes : Dictionary (Option TypeExpr)) :
    (subtype subtypes).Follows copies id := by
  refine bind_agrees (expect_agrees _ _) fun name hname => ite_alike (refuse_alike _ hname) ?_
  refine bind_follows payload_follows fun type => bind_agrees (expect_agrees _ _) fun _ _ => ?_
  exact bind_agrees skipNewlines_agrees fun _ _ => pure_alike rfl

private theorem customTypeForm_follows :
    customTypeForm.Follows copies (Stmt.moved copies.move) := by
  refine bind_agrees advance_agrees fun start _ => bind_agrees (expect_agrees _ _) fun name _ => ?_
  refine bind_agrees (expect_agrees _ _) fun _ _ => bind_agrees (expect_agrees _ _) fun _ _ => ?_
  refine bind_agrees skipNewlines_agrees fun _ _ => bind_agrees (expect_agrees _ _) fun _ _ => ?_
  refine bind_alike (fold_follows subtype_follows _ []) ?_
  rintro subtypes _ rfl
  refine bind_agrees (expect_agrees _ _) fun _ _ => ?_
  exact bind_follows (locate_follows start) fun location => pure_alike rfl

/-- A declaration is the same under both paths, up to its locations. -/
theorem parser_follows : Stmt.parser.Follows copies (Stmt.moved copies.move) :=
  bind_agrees peek_agrees fun _ htoken => ite_alike customTypeForm_follows
    (ite_alike bindingForm_follows (refuse_alike _ htoken))

end Stmt

/-- The failure in a source with other places. -/
def Failure.moved (move : Move) : Failure → Failure
  | .refused flaw => .refused (flaw.moved move)
  | .negation fault => .negation fault
  | .stalled => .stalled

namespace Program

private theorem statementsForm_follows :
    statementsForm.Follows copies (List.map (Stmt.moved copies.move)) := by
  refine bind_agrees skipNewlines_agrees fun _ _ => many_follows _ ?_ _
  refine bind_follows Stmt.parser_follows fun first => ?_
  exact bind_agrees skipNewlines_agrees fun _ _ => pure_alike rfl

/-- **The path decides nothing.** A program is the same under both paths, up to its locations and
its own path, or it is refused for the same cause at the same place, and this is one of those where
the tokens stand. -/
theorem form_follows : Program.form.Follows copies (Program.moved copies.move) :=
  bind_follows statementsForm_follows fun _ _ _ _ htokens => .ok rfl htokens

/-- Tokens are refused at the place of one of them, under the path of their source. -/
theorem ofTokens_refused {good : Position → Prop} {tokens : List Token} {path : Option String}
    {flaw : Flaw} (htokens : ∀ token ∈ tokens, token.At good)
    (h : ofTokens tokens path = .error (.refused flaw)) :
    good flaw.toPosition ∧ flaw.path = path := by
  unfold ofTokens at h
  split at h
  · cases h
  next last hlast =>
  have halike : (form ⟨last, path⟩ tokens).Alike ⟨good, path, none⟩ _ (form ⟨last, none⟩ tokens) :=
    form_follows last tokens (htokens last (List.mem_of_getLast? hlast)) htokens
  split at h
  · cases h
  next failure rest hfail =>
  cases h
  rw [hfail] at halike
  generalize form ⟨last, none⟩ tokens = outcome at halike
  cases halike with
  | refused hgood hpath => exact ⟨hgood, hpath⟩

/-- Under another path the same tokens are read as the same program, up to its locations, or they
fail in the same way. -/
theorem ofTokens_path (tokens : List Token) (path path' : Option String) :
    ofTokens tokens path' =
      ((ofTokens tokens path).map (Program.moved (.into path'))).mapError
        (Failure.moved (.into path')) := by
  unfold ofTokens
  cases tokens.getLast? with
  | none => rfl
  | some last =>
    have halike : (form ⟨last, path⟩ tokens).Alike ⟨fun _ => True, path, path'⟩ _
        (form ⟨last, path'⟩ tokens) :=
      form_follows last tokens trivial fun _ _ => trivial
    simp only
    generalize form ⟨last, path⟩ tokens = outcome at halike ⊢
    generalize form ⟨last, path'⟩ tokens = outcome' at halike ⊢
    cases halike with
    | ok hsame =>
      subst hsame
      rfl
    | refused | negation | stalled => rfl

/-- **Programs do not depend on the path.** Under another path a source is read as the same program,
up to its locations and its own path, or it fails in the same way. -/
theorem parse_path (keywords : Keywords) (source : String) (path path' : Option String) :
    Program.parse keywords source path' =
      ((Program.parse keywords source path).map (Program.moved (.into path'))).mapError
        (Failure.moved (.into path')) := by
  unfold Program.parse
  rw [tokenize_path keywords source path path']
  cases tokenize keywords source path with
  | error flaw => rfl
  | ok tokens => exact ofTokens_path tokens path path'

end Program

end Slick
