import Slick.Program.Parser
import Slick.Proofs.Grammar.Programs
import Slick.Proofs.Parser.Forward

/-!
# Programs are read or refused

Every production of the grammar moves forward: a type, an expression or a declaration that is read
has consumed a token, and what is not read is refused at a place. Each lemma follows its production,
with the reading of the phrases inside as a hypothesis. Main statement: `statementsForm_forward`.
-/

namespace Slick

open Slick.Parser Grammar

variable {ctx : Context} {tokens : List Token}

namespace TypeExpr

variable {type : Parser TypeExpr}

private theorem argument_forward (h : Throughout ctx type tokens)
    (hnext : (tokens.headD ctx.last).kind.startsType = true) :
    (argument type ctx tokens).Forward 1 tokens := by
  rw [argument, peek_bind]
  split
  · exact h.here
  · cases tokens with
    | nil => simp [h.last_eof, Kind.startsType] at hnext
    | cons name rest => exact (pure_forward _ ctx rest).cons

/-- A type is read or refused, if the types inside it are. -/
theorem form_forward (h : Ahead ctx type tokens) : (form type ctx tokens).Forward 1 tokens := by
  cases tokens with
  | nil =>
    have heof : ctx.last.kind ≠ .lparen ∧ ¬(ctx.last.kind = .uident ∨ ctx.last.kind = .ident) := by
      simp [h.last_eof]
    rw [form, peek_bind, List.headD_nil, if_neg heof.1, advance_bind, List.headD_nil,
      if_neg heof.2]
    exact refuse_forward _ _ _ _
  | cons token rest =>
    have hinside := h.behind
    rw [form, peek_bind_cons]
    split
    · rw [advance_bind_cons]
      refine Outcome.Forward.cons (bind_forward hinside.here.weaken ?_)
      intro inner rest _ _
      exact (bind_pure_forward (expect_forward h.last_eof (by decide) rest)).weaken
    · rw [advance_bind_cons]
      split
      · refine Outcome.Forward.cons (bind_forward (many_forward ?_) ?_)
        · intro current hcurrent hmore
          exact argument_forward (hinside.of_suffix hcurrent) hmore
        · exact fun _ _ _ _ => pure_forward _ _ _
      · exact (refuse_forward _ _ ctx rest).cons

/-- A type is read or refused. -/
theorem parser_forward (hlast : ctx.last.kind = .eof) (hnegatable : Negatable tokens) :
    (TypeExpr.parser ctx tokens).Forward 1 tokens :=
  fix_forward hlast (fun _ _ h => form_forward h) hnegatable

end TypeExpr

namespace Expr

variable {expr : Parser Expr}

/-- An expression is read or refused, on its own line or in a block. -/
theorem block_forward (h : Throughout ctx expr tokens) :
    (block expr ctx tokens).Forward 1 tokens := by
  rw [block, peek_bind]
  split
  · exact h.here
  · refine skipNewlines_bind_forward fun rest hrest => ?_
    replace h := h.of_suffix hrest
    -- The indent is consumed; behind it the reading only has to stay within the tokens.
    refine expect_bind_forward h.last_eof (by decide) fun _ rest hrest => ?_
    replace h := h.of_suffix hrest
    refine (bind_forward h.here fun inner rest _ _ => ?_).weaken
    refine skipNewlines_bind_forward fun rest _ => ?_
    exact (bind_pure_forward (expect_forward h.last_eof (by decide) rest)).weaken

/-- A function is read or refused. -/
theorem functionForm_forward (h : Throughout ctx expr tokens.tail) :
    (functionForm expr ctx tokens).Forward 1 tokens := by
  rw [functionForm, advance_bind]
  refine Outcome.Forward.within ?_ (List.tail_suffix tokens)
  refine takeWhile_bind_forward fun names rest hrest => ?_
  replace h := h.of_suffix hrest
  refine expect_bind_forward h.last_eof (by decide) fun _ rest hrest => ?_
  exact (bind_pure_forward (block_forward (h.of_suffix hrest))).weaken

/-- A conditional is read or refused. -/
theorem conditionalForm_forward (h : Throughout ctx expr tokens.tail) :
    (conditionalForm expr ctx tokens).Forward 1 tokens := by
  rw [conditionalForm, advance_bind]
  refine Outcome.Forward.within ?_ (List.tail_suffix tokens)
  refine bind_forward h.here fun condition rest hrest _ => ?_
  replace h := h.of_suffix hrest
  refine (expect_bind_forward h.last_eof (by decide) fun _ rest hrest => ?_).weaken
  replace h := h.of_suffix hrest
  refine (bind_forward (block_forward h) fun thenBranch rest hrest _ => ?_).weaken
  replace h := h.of_suffix hrest
  refine skipNewlines_bind_forward fun rest hrest => ?_
  replace h := h.of_suffix hrest
  refine (expect_bind_forward h.last_eof (by decide) fun _ rest hrest => ?_).weaken
  exact (bind_pure_forward (block_forward (h.of_suffix hrest))).weaken

private theorem groupingForm_forward (h : Throughout ctx expr tokens.tail) :
    (groupingForm expr ctx tokens).Forward 1 tokens := by
  rw [groupingForm, advance_bind]
  refine Outcome.Forward.within ?_ (List.tail_suffix tokens)
  refine skipNewlines_bind_forward fun rest hrest => ?_
  replace h := h.of_suffix hrest
  refine bind_forward h.here fun inner rest _ _ => ?_
  refine skipNewlines_bind_forward fun rest _ => ?_
  exact (bind_pure_forward (expect_forward h.last_eof (by decide) rest)).weaken

/-- A list is read or refused. -/
theorem listForm_forward {token : Token} (h : Throughout ctx expr tokens) :
    (listForm expr ctx (token :: tokens)).Forward 1 (token :: tokens) := by
  rw [listForm, advance_bind_cons]
  refine Outcome.Forward.cons (skipSeparators_bind_forward fun rest hrest => ?_)
  replace h := h.of_suffix hrest
  refine bind_forward (many_forward fun current hcurrent _ => ?_) fun elements rest _ _ => ?_
  · rw [peek_bind]
    split
    · exact refuse_forward _ _ _ _
    · refine bind_forward (h.forward current hcurrent) fun element rest _ _ => ?_
      exact skipSeparators_bind_forward fun rest _ => pure_forward _ _ _
  · exact (pure_forward _ ctx _).within (List.tail_suffix rest)

private theorem field_forward (h : Throughout ctx expr tokens) (start : Token)
    (entries : Dictionary Expr) : (field expr start entries ctx tokens).Forward 1 tokens := by
  rw [field, peek_bind]
  split
  · exact refuse_forward _ _ _ _
  · refine expect_bind_forward h.last_eof (by decide) fun key rest hrest => ?_
    replace h := h.of_suffix hrest
    split
    · exact refuse_forward _ _ _ _
    · refine (expect_bind_forward h.last_eof (by decide) fun _ rest hrest => ?_).weaken
      replace h := h.of_suffix hrest
      refine (bind_forward h.here fun value rest _ _ => ?_).weaken
      exact skipSeparators_bind_forward fun rest _ => pure_forward _ _ _

private theorem fields_forward (h : Throughout ctx expr tokens) (start : Token) :
    (fields expr start ctx tokens).Forward 0 tokens := by
  rw [fields]
  refine skipSeparators_bind_forward fun rest hrest => ?_
  replace h := h.of_suffix hrest
  refine bind_forward (fold_forward (fun entries current hcurrent _ => ?_) []) ?_
  · exact field_forward (h.of_suffix hcurrent) start entries
  · intro entries rest _ _
    exact (pure_forward entries ctx _).within (List.tail_suffix rest)

/-- A record is read or refused. -/
theorem recordForm_forward {token : Token} (h : Throughout ctx expr tokens) :
    (recordForm expr ctx (token :: tokens)).Forward 1 (token :: tokens) := by
  rw [recordForm, advance_bind_cons]
  refine Outcome.Forward.cons (skipNewlines_bind_forward fun rest hrest => ?_)
  replace h := h.of_suffix hrest
  rw [peek_bind, peekSecond_bind]
  split
  · exact bind_pure_forward (fields_forward h token)
  · refine (bind_forward h.here fun target rest hrest _ => ?_).weaken
    replace h := h.of_suffix hrest
    refine (expect_bind_forward h.last_eof (by decide) fun _ rest hrest => ?_).weaken
    exact bind_pure_forward (fields_forward (h.of_suffix hrest) token)

/-- A minus sign stands before a numeral of the list, and that one has a negative. -/
theorem negated_forward {value : Value} (h : ∃ negative, value.negate = .ok negative) :
    (negated value ctx tokens).Forward 0 tokens := by
  obtain ⟨negative, hnegative⟩ := h
  rw [negated, hnegative]
  exact pure_forward negative ctx tokens

/-- The innermost form is read or refused. -/
theorem primary_forward (h : Ahead ctx expr tokens) :
    (primary expr ctx tokens).Forward 1 tokens := by
  cases tokens with
  | nil => simp [primary, Lexeme.isTruth, h.last_eof, refuse_forward]
  | cons token rest =>
    have hinside := h.behind
    rw [primary, peek_bind_cons, peekSecond_bind_cons]
    split
    · exact (pure_forward _ ctx rest).cons
    split
    · next hminus =>
      cases rest with
      | nil =>
        rw [List.headD_nil, h.last_eof] at hminus
        cases hminus.2
      | cons numeral rest =>
        have hnegative := h.negatable numeral (by simp) hminus.2
        refine Outcome.Forward.cons (Outcome.Forward.cons ?_).weaken
        exact bind_pure_forward (negated_forward hnegative)
    split
    · exact (pure_forward _ ctx rest).cons
    split
    · exact groupingForm_forward hinside
    split
    · exact listForm_forward hinside
    split
    · exact recordForm_forward hinside
    · exact refuse_forward _ _ _ _

/-- A form with accesses to fields behind it is read or refused. -/
theorem access_forward (h : Ahead ctx expr tokens) :
    (access expr ctx tokens).Forward 1 tokens := by
  rw [access, peek_bind]
  refine bind_forward (primary_forward h) fun object rest _ _ => fold_forward ?_ object
  intro object current _ hmore
  cases current with
  | nil => simp [h.last_eof] at hmore
  | cons dot rest =>
    refine Outcome.Forward.cons ?_
    exact (pure_forward _ ctx _).within (List.tail_suffix rest)

/-- A call is read or refused. -/
theorem callForm_forward (h : Ahead ctx expr tokens) :
    (callForm expr ctx tokens).Forward 1 tokens := by
  rw [callForm, peek_bind]
  refine bind_forward (access_forward h) fun callee rest hrest _ => ?_
  refine bind_forward (many_forward fun current hcurrent _ => ?_) fun arguments rest _ _ => ?_
  · exact access_forward (h.of_suffix (hcurrent.trans hrest))
  · split
    · exact pure_forward _ _ _
    · exact pure_forward _ _ _

private theorem operation_forward {operand : Parser Expr} {operator : Token}
    (h : (operand ctx tokens).Forward 1 tokens) (left : Expr) :
    (operation operand left ctx (operator :: tokens)).Forward 1 (operator :: tokens) := by
  rw [operation, advance_bind_cons]
  refine Outcome.Forward.cons (bind_forward h.weaken ?_)
  exact fun _ _ _ _ => pure_forward _ _ _

/-- An operator is not the end of the source, so a chain goes on only behind one. -/
theorem chain_forward {isOperator : Token → Bool} {operand : Parser Expr}
    (hend : isOperator ctx.last = false)
    (hoperand : ∀ current, current <:+ tokens → (operand ctx current).Forward 1 current) :
    (chain isOperator operand ctx tokens).Forward 1 tokens := by
  rw [chain]
  refine bind_forward (hoperand tokens (List.suffix_refl tokens)) fun first rest hrest _ => ?_
  refine fold_forward (fun left current hcurrent hmore => ?_) first
  cases current with
  | nil =>
    rw [List.headD_nil, hend] at hmore
    cases hmore
  | cons operator behind =>
    have hbehind : behind <:+ tokens :=
      (List.suffix_cons operator behind).trans (hcurrent.trans hrest)
    exact operation_forward (hoperand behind hbehind) left

/-- A product is read or refused. -/
theorem term_forward (h : Ahead ctx expr tokens) : (term expr ctx tokens).Forward 1 tokens :=
  chain_forward (by simp [h.last_eof, Kind.isMultiplicative])
    fun _ hcurrent => callForm_forward (h.of_suffix hcurrent)

/-- A sum is read or refused. -/
theorem additive_forward (h : Ahead ctx expr tokens) :
    (additive expr ctx tokens).Forward 1 tokens :=
  chain_forward (by simp [h.last_eof, Kind.isAdditive])
    fun _ hcurrent => term_forward (h.of_suffix hcurrent)

/-- A comparison is read or refused. -/
theorem comparison_forward (h : Ahead ctx expr tokens) :
    (comparison expr ctx tokens).Forward 1 tokens := by
  rw [comparison]
  refine bind_forward (additive_forward h) fun left rest hrest _ => ?_
  rw [peek_bind]
  split
  · next hoperator =>
    cases rest with
    | nil => simp [h.last_eof, Kind.isComparison] at hoperator
    | cons operator behind =>
      have hbehind : behind <:+ tokens := (List.suffix_cons operator behind).trans hrest
      exact (operation_forward (additive_forward (h.of_suffix hbehind)) left).weaken
  · exact pure_forward _ _ _

/-- A conjunction is read or refused. -/
theorem conjunction_forward (h : Ahead ctx expr tokens) :
    (conjunction expr ctx tokens).Forward 1 tokens :=
  chain_forward (by simp [h.last_eof, Lexeme.isWord])
    fun _ hcurrent => comparison_forward (h.of_suffix hcurrent)

/-- A disjunction is read or refused. -/
theorem disjunction_forward (h : Ahead ctx expr tokens) :
    (disjunction expr ctx tokens).Forward 1 tokens :=
  chain_forward (by simp [h.last_eof, Lexeme.isWord])
    fun _ hcurrent => conjunction_forward (h.of_suffix hcurrent)

/-- An arm is read or refused. -/
theorem arm_forward (h : Throughout ctx expr tokens) :
    (arm expr ctx tokens).Forward 1 tokens := by
  rw [arm, peek_bind]
  split
  · next hsubtype =>
    cases tokens with
    | nil => simp [h.last_eof] at hsubtype
    | cons subtype rest =>
      replace h := h.of_suffix (List.suffix_cons subtype rest)
      rw [advance_bind_cons]
      refine Outcome.Forward.cons (takeWhile_bind_forward fun names rest hrest => ?_)
      replace h := h.of_suffix hrest
      refine (expect_bind_forward h.last_eof (by decide) fun _ rest hrest => ?_).weaken
      exact (bind_pure_forward (block_forward (h.of_suffix hrest))).weaken
  · refine bind_forward (primary_forward h.ahead) fun pattern rest hrest _ => ?_
    replace h := h.of_suffix hrest
    refine (expect_bind_forward h.last_eof (by decide) fun _ rest hrest => ?_).weaken
    exact (bind_pure_forward (block_forward (h.of_suffix hrest))).weaken

/-- A choice is read or refused. -/
theorem selectForm_forward (h : Throughout ctx expr tokens.tail) :
    (selectForm expr ctx tokens).Forward 1 tokens := by
  rw [selectForm, advance_bind]
  refine Outcome.Forward.within ?_ (List.tail_suffix tokens)
  refine bind_forward h.here fun scrutinee rest hrest _ => ?_
  replace h := h.of_suffix hrest
  refine (expect_bind_forward h.last_eof (by decide) fun _ rest hrest => ?_).weaken
  replace h := h.of_suffix hrest
  refine (expect_bind_forward h.last_eof (by decide) fun _ rest hrest => ?_).weaken
  replace h := h.of_suffix hrest
  refine skipNewlines_bind_forward fun rest hrest => ?_
  replace h := h.of_suffix hrest
  refine (expect_bind_forward h.last_eof (by decide) fun _ rest hrest => ?_).weaken
  replace h := h.of_suffix hrest
  refine bind_forward (many_forward fun current hcurrent _ => ?_) fun arms rest _ _ => ?_
  · refine bind_forward (arm_forward (h.of_suffix hcurrent)) fun first rest _ _ => ?_
    exact skipNewlines_bind_forward fun rest _ => pure_forward _ _ _
  · refine (expect_bind_forward h.last_eof (by decide) fun _ rest _ => ?_).weaken
    split
    · exact refuse_forward _ _ _ _
    · exact pure_forward _ _ _

/-- An expression is read or refused, if those inside it are. -/
theorem form_forward (h : Ahead ctx expr tokens) : (form expr ctx tokens).Forward 1 tokens := by
  -- The words that open a form are not the end of the source, so there is a token to consume.
  have hinside : (tokens.headD ctx.last).kind ≠ .eof → Throughout ctx expr tokens.tail := by
    intro hnext
    rw [eq_cons_of_kind_ne_eof h.last_eof hnext] at h
    exact h.behind
  rw [form, peek_bind]
  split
  · next hfn => exact functionForm_forward (hinside (by rw [hfn]; decide))
  split
  · next hif => exact conditionalForm_forward (hinside (kind_ne_eof_of_isWord hif))
  split
  · next hcase => exact selectForm_forward (hinside (kind_ne_eof_of_isWord hcase))
  · exact disjunction_forward h

/-- An expression is read or refused. -/
theorem parser_forward (hlast : ctx.last.kind = .eof) (hnegatable : Negatable tokens) :
    (Expr.parser ctx tokens).Forward 1 tokens :=
  fix_forward hlast (fun _ _ h => form_forward h) hnegatable

/-- Expressions are read or refused throughout the tokens. -/
theorem parser_throughout (hlast : ctx.last.kind = .eof) (hnegatable : Negatable tokens) :
    Throughout ctx Expr.parser tokens :=
  ⟨hlast, hnegatable, fun _ hcurrent => parser_forward hlast (hnegatable.of_suffix hcurrent)⟩

end Expr

namespace Stmt

/-- A binding is read or refused. -/
theorem bindingForm_forward (hlast : ctx.last.kind = .eof) (hnegatable : Negatable tokens) :
    (bindingForm ctx tokens).Forward 1 tokens := by
  rw [bindingForm, advance_bind]
  refine Outcome.Forward.within ?_ (List.tail_suffix tokens)
  refine expect_bind_forward hlast (by decide) fun _ rest hrest => ?_
  have hexpr := Expr.parser_throughout hlast
    (hnegatable.of_suffix (hrest.trans (List.tail_suffix tokens)))
  exact (bind_pure_forward (Expr.block_forward hexpr)).weaken

private theorem payload_forward (hlast : ctx.last.kind = .eof) (hnegatable : Negatable tokens) :
    (payload ctx tokens).Forward 0 tokens := by
  rw [payload, peek_bind]
  split
  · exact pure_forward _ _ _
  · exact (bind_pure_forward (TypeExpr.parser_forward hlast hnegatable)).weaken

private theorem subtype_forward (hlast : ctx.last.kind = .eof) (hnegatable : Negatable tokens)
    (subtypes : Dictionary (Option TypeExpr)) :
    (subtype subtypes ctx tokens).Forward 1 tokens := by
  rw [subtype]
  refine expect_bind_forward hlast (by decide) fun name rest hrest => ?_
  split
  · exact refuse_forward _ _ _ _
  · refine bind_forward (payload_forward hlast (hnegatable.of_suffix hrest)) ?_
    intro type rest _ _
    refine (expect_bind_forward hlast (by decide) fun _ rest _ => ?_).weaken
    exact skipNewlines_bind_forward fun rest _ => pure_forward _ _ _

/-- The declaration of a type is read or refused. -/
theorem customTypeForm_forward (hlast : ctx.last.kind = .eof) (hnegatable : Negatable tokens) :
    (customTypeForm ctx tokens).Forward 1 tokens := by
  rw [customTypeForm, advance_bind]
  refine Outcome.Forward.within ?_ (List.tail_suffix tokens)
  replace hnegatable := hnegatable.of_suffix (List.tail_suffix tokens)
  refine expect_bind_forward hlast (by decide) fun name rest hrest => ?_
  replace hnegatable := hnegatable.of_suffix hrest
  refine (expect_bind_forward hlast (by decide) fun _ rest hrest => ?_).weaken
  replace hnegatable := hnegatable.of_suffix hrest
  refine (expect_bind_forward hlast (by decide) fun _ rest hrest => ?_).weaken
  replace hnegatable := hnegatable.of_suffix hrest
  refine skipNewlines_bind_forward fun rest hrest => ?_
  replace hnegatable := hnegatable.of_suffix hrest
  refine (expect_bind_forward hlast (by decide) fun _ rest hrest => ?_).weaken
  replace hnegatable := hnegatable.of_suffix hrest
  refine bind_forward (fold_forward (fun subtypes current hcurrent _ => ?_) []) ?_
  · exact subtype_forward hlast (hnegatable.of_suffix hcurrent) subtypes
  · intro subtypes rest _ _
    exact (bind_pure_forward (expect_forward hlast (by decide) rest)).weaken

/-- A declaration is read or refused. -/
theorem parser_forward (hlast : ctx.last.kind = .eof) (hnegatable : Negatable tokens) :
    (Stmt.parser ctx tokens).Forward 1 tokens := by
  rw [Stmt.parser, peek_bind]
  split
  · exact customTypeForm_forward hlast hnegatable
  split
  · exact bindingForm_forward hlast hnegatable
  · exact refuse_forward _ _ _ _

end Stmt

namespace Program

/-- The declarations of a source are read or refused. -/
theorem statementsForm_forward (hlast : ctx.last.kind = .eof) (hnegatable : Negatable tokens) :
    (statementsForm ctx tokens).Forward 0 tokens := by
  rw [statementsForm]
  refine skipNewlines_bind_forward fun rest hrest => many_forward fun current hcurrent _ => ?_
  have hstmt := Stmt.parser_forward hlast (hnegatable.of_suffix (hcurrent.trans hrest))
  refine bind_forward hstmt fun first rest _ _ => ?_
  exact skipNewlines_bind_forward fun rest _ => pure_forward _ _ _

/-- A source is read or refused. -/
theorem form_forward (hlast : ctx.last.kind = .eof) (hnegatable : Negatable tokens) :
    (form ctx tokens).Forward 0 tokens :=
  bind_forward (statementsForm_forward hlast hnegatable) fun _ rest _ _ =>
    bind_pure_forward (pure_forward _ ctx rest)

end Program

end Slick
