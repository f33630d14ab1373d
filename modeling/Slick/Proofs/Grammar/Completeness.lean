import Slick.Proofs.Grammar.Soundness

/-!
# What the readers of expressions must accept

Every phrase of the grammar whose items are kept apart is read back as the tree it was spelled
for, in front of any token that does not extend it. `Phrase.Read` says for each category what its
reader has to do, each production is treated on its own, and `Spells.read` collects them. The
readers never give anything up, so the point of every case is that no part reads beyond its end.

For a level of operators and for accesses the statement is about the loop: it arrives behind the
phrase with the tree of the phrase in hand. The size in the statements bounds the lists at which a
nested reading may start.
-/

namespace Slick.Grammar

open Slick.Parser

variable {ctx : Context} {path : Option String}

/-- The next token does not belong to the expression that the tokens spell. -/
def Closed (tokens : List Token) (token : Token) : Prop :=
  EndsBlock tokens ∨ extendsExpression token = false

/-- The reader of a level. -/
def Level.reader : Level → Parser Expr → Parser Expr
  | disjunction => Expr.disjunction
  | conjunction => Expr.conjunction
  | comparison => Expr.comparison
  | sum => Expr.additive
  | product => Expr.term

/-- The reader of the operands of a level. -/
def Level.operandReader : Level → Parser Expr → Parser Expr
  | disjunction => Expr.conjunction
  | conjunction => Expr.comparison
  | comparison => Expr.additive
  | sum => Expr.term
  | product => Expr.callForm

/-- The loop that reads accesses to the fields of an object that starts with the given token. -/
abbrev accessLoop (start : Token) : Expr → Parser Expr :=
  fold (fun token second => token.kind == .dot && second.kind == .ident) fun object => do
    let _ ← advance
    let name ← advance
    return Expr.get object name (← locate start)

/-- The loop that reads the elements of a list that starts with the given token. -/
abbrev elementLoop (expr : Parser Expr) (start : Token) : Parser (List Expr) :=
  many (fun token _ => token.kind ≠ .rbracket) do
    let token ← peek
    if token.kind = .eof then refuse .unclosedList start
    else
      let element ← expr
      skipSeparators
      return element

/-- The loop that reads the arms of a choice. -/
abbrev armLoop (expr : Parser Expr) : Parser (List Arm) :=
  many (fun token _ => token.kind ≠ .dedent && token.kind ≠ .eof) do
    let first ← Expr.arm expr
    skipNewlines
    return first

/-- What the reader of a level makes of tokens that spell an expression of it. A comparison is read
as a whole. At any other level the loop over the operators of the level goes on behind the tokens,
with their expression as its left operand. -/
def Level.Read (level : Level) (ctx : Context) (tokens : List Token) (e : Expr) : Prop :=
  ∀ rest size, (tokens ++ rest).length ≤ size →
    if level = .comparison then
      level.extends (rest.headD ctx.last) = false →
        level.reader (Expr.parser.below size) ctx (tokens ++ rest) = .ok e rest
    else
      level.extendsOperand (rest.headD ctx.last) = false →
        level.reader (Expr.parser.below size) ctx (tokens ++ rest) =
          fold (fun token _ => level.isOperator token)
            (Expr.operation (level.operandReader (Expr.parser.below size))) e ctx rest

/-- What the readers make of a phrase that the tokens spell, in front of a token that does not
extend it. -/
def Phrase.Read (ctx : Context) (tokens : List Token) : Phrase → Prop
  | .block e => ∀ rest size, Closed tokens (rest.headD ctx.last) → (tokens ++ rest).length < size →
    Expr.block (Expr.parser.below size) ctx (tokens ++ rest) = .ok e rest
  | .expression e => ∀ rest, Closed tokens (rest.headD ctx.last) →
    Expr.parser ctx (tokens ++ rest) = .ok e rest
  | .level l e => l.Read ctx tokens e
  | .call e => ∀ rest size, extendsCall (rest.headD ctx.last) = false →
    (tokens ++ rest).length ≤ size →
    Expr.callForm (Expr.parser.below size) ctx (tokens ++ rest) = .ok e rest
  | .arguments es => ∀ rest size, extendsCall (rest.headD ctx.last) = false →
    (tokens ++ rest).length ≤ size →
    many (fun token _ => token.kind.startsArgument || token.isTruth)
      (Expr.access (Expr.parser.below size)) ctx (tokens ++ rest) = .ok es rest
  | .access e => ∀ rest size, (tokens ++ rest).length ≤ size →
    Expr.access (Expr.parser.below size) ctx (tokens ++ rest) =
      accessLoop (tokens.headD ctx.last) e ctx rest
  | .primary e => ∀ rest size, (tokens ++ rest).length ≤ size →
    Expr.primary (Expr.parser.below size) ctx (tokens ++ rest) = .ok e rest
  | .elements es => ∀ rest size start, (rest.headD ctx.last).kind = .rbracket →
    (tokens ++ rest).length < size →
    elementLoop (Expr.parser.below size) start ctx (tokens ++ rest) = .ok es rest
  | .fields added => ∀ rest size start known, (rest.headD ctx.last).kind = .rbrace →
    (tokens ++ rest).length < size → ((known ++ added).map Prod.fst).Nodup →
    fold (fun token _ => token.kind ≠ .rbrace) (Expr.field (Expr.parser.below size) start) known
      ctx (tokens ++ rest) = .ok (known ++ added) rest
  | .arm a => ∀ rest size, Closed tokens (rest.headD ctx.last) → (tokens ++ rest).length < size →
    Expr.arm (Expr.parser.below size) ctx (tokens ++ rest) = .ok a rest
  | .arms as => ∀ rest size, (rest.headD ctx.last).kind = .dedent →
    (tokens ++ rest).length < size →
    armLoop (Expr.parser.below size) ctx (tokens ++ rest) = .ok as rest

/-- The reader of expressions is its own form, with nested expressions restricted to shorter
lists. -/
theorem parser_apply (ctx : Context) (tokens : List Token) :
    Expr.parser ctx tokens = Expr.form (Expr.parser.below tokens.length) ctx tokens := by
  rw [Expr.parser, fix_apply]

/-- Line ends are skipped up to the first other token. -/
theorem skipNewlines_run {β : Type} {lines rest : List Token} (hlines : Newlines lines)
    (hrest : ∀ token ∈ rest.head?, token.kind ≠ .newline) (f : Unit → Parser β) :
    (skipNewlines >>= f) ctx (lines ++ rest) = f () ctx rest := by
  rw [skipNewlines_bind, List.dropWhile_append_of_pos]
  · cases rest with
    | nil => rfl
    | cons token more => rw [List.dropWhile_cons_of_neg (by simpa using hrest token rfl)]
  · intro token htoken
    simp [hlines token htoken]

/-- Separators are skipped up to the first other token. -/
theorem skipSeparators_run {β : Type} {separators rest : List Token}
    (hseparators : Separators separators)
    (hrest : ∀ token ∈ rest.head?, token.kind ≠ .newline ∧ token.kind ≠ .comma)
    (f : Unit → Parser β) : (skipSeparators >>= f) ctx (separators ++ rest) = f () ctx rest := by
  rw [skipSeparators_bind, List.dropWhile_append_of_pos]
  · cases rest with
    | nil => rfl
    | cons token more => rw [List.dropWhile_cons_of_neg (by simpa using hrest token rfl)]
  · intro token htoken
    simpa using hseparators token htoken

/-- Names are read up to the first other token. -/
theorem parameters_run {β : Type} {names rest : List Token} {token : Token}
    (hnames : Names names) (htoken : token.kind ≠ .ident) (f : List Token → Parser β) :
    (Expr.parameters >>= f) ctx (names ++ token :: rest) = f names ctx (token :: rest) := by
  have hall : ∀ name ∈ names, (name.kind == .ident) = true := fun name hname => by
    simp [hnames name hname]
  rw [Expr.parameters, takeWhile_bind, List.takeWhile_append_of_pos hall,
    List.dropWhile_append_of_pos hall, List.takeWhile_cons_of_neg (by simpa using htoken),
    List.dropWhile_cons_of_neg (by simpa using htoken), List.append_nil]

/-- A spelled phrase that is not a run starts as its category does, whatever follows it. -/
theorem Spells.starts_append {tokens : List Token} {phrase : Phrase}
    (h : Spells path Apart tokens phrase) (hrun : phrase.isRun = false) (rest : List Token) :
    ∀ token ∈ (tokens ++ rest).head?, phrase.starts token = true := by
  obtain ⟨first, more, rfl, hstarts⟩ := h.exists_cons hrun
  intro token htoken
  obtain rfl : first = token := by simpa using htoken
  exact hstarts

/-- Line ends do not extend an expression, whatever they are followed by. -/
theorem extendsExpression_newlines {lines rest : List Token} {token : Token}
    (hlines : Newlines lines) (htoken : extendsExpression token = false) :
    extendsExpression ((lines ++ token :: rest).headD ctx.last) = false := by
  cases lines with
  | nil => exact htoken
  | cons line more => exact extendsExpression_eq_false (by simp [hlines line (by simp)])

/-- Items that are kept apart from an expression do not extend it, and neither does a token behind
them that extends nothing. -/
theorem Apart.closed {item next rest : List Token} (h : Apart item next)
    (hrest : extendsExpression (rest.headD ctx.last) = false) :
    Closed item ((next ++ rest).headD ctx.last) := by
  rcases h with hblock | hnext
  · exact .inl hblock
  · cases next with
    | nil => exact .inr hrest
    | cons first more => exact .inr (hnext first rfl)

/-- An expression ends where its ctx part ends. -/
theorem Closed.of_suffix {tokens part : List Token} {token : Token} (h : Closed tokens token)
    (hpart : part <:+ tokens) (hne : part ≠ []) : Closed part token := by
  obtain ⟨before, rfl⟩ := hpart
  exact h.imp (fun hblock => hblock.of_append hne) id

/-- Only a run of items may be spelled by no tokens. -/
theorem Spells.ne_nil {tokens : List Token} {phrase : Phrase} (h : Spells path Apart tokens phrase)
    (hrun : phrase.isRun = false) : tokens ≠ [] := by
  obtain ⟨first, more, rfl, -⟩ := h.exists_cons hrun
  exact List.cons_ne_nil first more

/-- An expression does not start with a line end. -/
theorem kind_ne_newline_of_startsExpression {token : Token} (h : startsExpression token = true) :
    token.kind ≠ .newline := by
  intro hkind
  simpa [hkind] using kind_of_startsExpression h

private theorem inline_read {tokens : List Token} {e : Expr}
    (h : Spells ctx.path Apart tokens (.expression e))
    (hread : (Phrase.expression e).Read ctx tokens) : (Phrase.block e).Read ctx tokens := by
  intro rest size hclosed hsize
  obtain ⟨first, more, rfl, hstarts⟩ := h.exists_cons rfl
  have hkind := kind_ne_newline_of_startsExpression hstarts
  rw [Expr.block, List.cons_append, peek_bind_cons, if_pos hkind, ← List.cons_append,
    below_of_lt hsize]
  exact hread rest hclosed

private theorem indented_read {lines inner ends : List Token} {indent dedent : Token} {e : Expr}
    (hne : lines ≠ []) (hlines : Newlines lines) (hindent : indent.kind = .indent)
    (hread : (Phrase.expression e).Read ctx inner)
    (hends : Newlines ends) (hdedent : dedent.kind = .dedent) :
    (Phrase.block e).Read ctx (lines ++ indent :: (inner ++ (ends ++ [dedent]))) := by
  intro rest size _ hsize
  simp only [List.append_assoc, List.cons_append, List.nil_append, List.length_append,
    List.length_cons] at hsize ⊢
  have hhead : ¬((lines ++ indent :: (inner ++ (ends ++ dedent :: rest))).headD ctx.last).kind ≠
      .newline := by
    obtain ⟨line, more, rfl⟩ := List.exists_cons_of_ne_nil hne
    simpa using hlines line (by simp)
  have hstops : extendsExpression dedent = false := extendsExpression_eq_false (by simp [hdedent])
  have hbelow : (Expr.parser.below size) ctx (inner ++ (ends ++ dedent :: rest)) =
      .ok e (ends ++ dedent :: rest) := by
    rw [below_of_lt (by simp only [List.length_append, List.length_cons]; omega)]
    exact hread _ (.inr (extendsExpression_newlines hends hstops))
  rw [Expr.block, peek_bind, if_neg hhead, skipNewlines_run hlines (by simp [hindent]),
    bind_of_ok (expect_any_cons hindent _ _), bind_of_ok hbelow,
    skipNewlines_run hends (by simp [hdedent]), bind_of_ok (expect_any_cons hdedent _ _)]
  rfl

private theorem function_read {start arrow : Token} {names body : List Token} {e : Expr}
    (hstart : start.kind = .fn) (hnames : Names names) (harrow : arrow.kind = .arrow)
    (hbody : Spells ctx.path Apart body (.block e)) (hread : (Phrase.block e).Read ctx body) :
    (Phrase.expression (.function names e (start.location ctx.path))).Read ctx
      (start :: (names ++ arrow :: body)) := by
  intro rest hclosed
  have hclosedBody : Closed body (rest.headD ctx.last) :=
    hclosed.of_suffix ⟨start :: (names ++ [arrow]), by simp⟩ (hbody.ne_nil rfl)
  simp only [List.append_assoc, List.cons_append]
  rw [parser_apply, Expr.form, peek_bind_cons, if_pos hstart, Expr.functionForm,
    advance_bind_cons, parameters_run hnames (by simp [harrow]),
    bind_of_ok (expect_any_cons harrow _ _), bind_of_ok (hread rest _ hclosedBody ?_)]
  · rfl
  · simp only [List.length_append, List.length_cons]
    omega

private theorem conditional_read {start thenWord elseWord : Token}
    {condition thenPart lines elsePart : List Token} {c t e : Expr}
    (hstart : start.isWord "if" = true) (hcondition : (Phrase.expression c).Read ctx condition)
    (hthenWord : thenWord.isWord "then" = true) (hthen : (Phrase.block t).Read ctx thenPart)
    (hlines : Newlines lines) (helseWord : elseWord.isWord "else" = true)
    (helseSpells : Spells ctx.path Apart elsePart (.block e))
    (helse : (Phrase.block e).Read ctx elsePart) :
    (Phrase.expression (.conditional c t e (start.location ctx.path))).Read ctx
      (start :: (condition ++ thenWord :: (thenPart ++ (lines ++ elseWord :: elsePart)))) := by
  intro rest hclosed
  have hclosedElse : Closed elsePart (rest.headD ctx.last) :=
    hclosed.of_suffix ⟨start :: (condition ++ thenWord :: (thenPart ++ (lines ++ [elseWord]))),
      by simp⟩ (helseSpells.ne_nil rfl)
  have hfn : start.kind ≠ .fn := by
    rw [(Lexeme.isWord_iff.mp hstart).1]
    decide
  have hthenStops := extendsExpression_of_isWord hthenWord (by decide) (by decide)
  have helseStops := extendsExpression_of_isWord helseWord (by decide) (by decide)
  have helseKind : elseWord.kind ≠ .newline := by
    rw [(Lexeme.isWord_iff.mp helseWord).1]
    decide
  simp only [List.append_assoc, List.cons_append]
  rw [parser_apply, Expr.form, peek_bind_cons, if_neg hfn, if_pos hstart, Expr.conditionalForm,
    advance_bind_cons]
  generalize hsize : (start :: (condition ++ thenWord ::
    (thenPart ++ (lines ++ elseWord :: (elsePart ++ rest))))).length = size
  simp only [List.length_append, List.length_cons] at hsize
  have hreadCondition := hcondition
    (thenWord :: (thenPart ++ (lines ++ elseWord :: (elsePart ++ rest)))) (.inr hthenStops)
  have hreadThen := hthen (lines ++ elseWord :: (elsePart ++ rest)) size
    (.inr (extendsExpression_newlines hlines helseStops))
    (by simp only [List.length_append, List.length_cons]; omega)
  have hreadElse := helse rest size hclosedElse (by rw [List.length_append]; omega)
  have hshort : (condition ++ thenWord :: (thenPart ++
      (lines ++ elseWord :: (elsePart ++ rest)))).length < size := by
    simp only [List.length_append, List.length_cons]
    omega
  rw [bind_of_ok ((below_of_lt hshort).trans hreadCondition),
    bind_of_ok (expectWord_cons hthenWord _ _), bind_of_ok hreadThen,
    skipNewlines_run hlines (by simpa using helseKind), bind_of_ok (expectWord_cons helseWord _ _),
    bind_of_ok hreadElse]
  rfl

private theorem select_read {start ofWord indent dedent : Token}
    {scrutinee lines armTokens : List Token}
    {e : Expr} {arms : List Arm} (hstart : start.isWord "case" = true)
    (hscrutinee : (Phrase.expression e).Read ctx scrutinee) (hofWord : ofWord.isWord "of" = true)
    (hne : lines ≠ []) (hlines : Newlines lines) (hindent : indent.kind = .indent)
    (harms : (Phrase.arms arms).Read ctx armTokens) (hsome : arms ≠ [])
    (hdedent : dedent.kind = .dedent) :
    (Phrase.expression (.select e arms (start.location ctx.path))).Read ctx
      (start :: (scrutinee ++ ofWord :: (lines ++ indent :: (armTokens ++ [dedent])))) := by
  intro rest _
  obtain ⟨hkind, hvalue⟩ := Lexeme.isWord_iff.mp hstart
  have hfn : start.kind ≠ .fn := by
    rw [hkind]
    decide
  have hif : ¬start.isWord "if" = true := by simp [Lexeme.isWord, hvalue, Wanted.accepts]
  have hofStops := extendsExpression_of_isWord hofWord (by decide) (by decide)
  obtain ⟨line, more, rfl⟩ := List.exists_cons_of_ne_nil hne
  have hmore : Newlines more := fun token htoken => hlines token (List.mem_cons_of_mem _ htoken)
  simp only [List.append_assoc, List.cons_append, List.nil_append]
  rw [parser_apply, Expr.form, peek_bind_cons, if_neg hfn, if_neg hif, if_pos hstart,
    Expr.selectForm, advance_bind_cons]
  generalize hsize : (start :: (scrutinee ++ ofWord :: line ::
    (more ++ indent :: (armTokens ++ dedent :: rest)))).length = size
  simp only [List.length_append, List.length_cons] at hsize
  have hshort : (scrutinee ++ ofWord :: line ::
      (more ++ indent :: (armTokens ++ dedent :: rest))).length < size := by
    simp only [List.length_append, List.length_cons]
    omega
  have hreadScrutinee := hscrutinee
    (ofWord :: line :: (more ++ indent :: (armTokens ++ dedent :: rest))) (.inr hofStops)
  have hreadArms := harms (dedent :: rest) size hdedent
    (by simp only [List.length_append, List.length_cons]; omega)
  rw [bind_of_ok ((below_of_lt hshort).trans hreadScrutinee),
    bind_of_ok (expectWord_cons hofWord _ _),
    bind_of_ok (expect_any_cons (hlines line (by simp)) _ _),
    skipNewlines_run hmore (by simp [hindent]), bind_of_ok (expect_any_cons hindent _ _),
    bind_of_ok hreadArms, bind_of_ok (expect_any_cons hdedent _ _), if_neg (by simpa using hsome)]
  rfl

/-- Away from the comparisons a level is read by a loop over its operators. -/
theorem Level.reader_eq_chain {level : Level} (hlevel : level ≠ .comparison)
    (expr : Parser Expr) :
    level.reader expr = Expr.chain level.isOperator (level.operandReader expr) := by
  cases level <;> first | rfl | exact absurd rfl hlevel

/-- A comparison has at most one operator. -/
theorem Level.reader_comparison (expr : Parser Expr) :
    comparison.reader expr = (do
      let left ← comparison.operandReader expr
      let token ← peek
      if comparison.isOperator token then Expr.operation (comparison.operandReader expr) left
      else return left) := rfl

/-- In front of a token that extends nothing the loop of a level is over. -/
theorem Level.Read.whole {level : Level} {tokens : List Token} {e : Expr}
    (h : level.Read ctx tokens e) {rest : List Token} {size : Nat}
    (hstop : level.extends (rest.headD ctx.last) = false) (hsize : (tokens ++ rest).length ≤ size) :
    level.reader (Expr.parser.below size) ctx (tokens ++ rest) = .ok e rest := by
  have hread := h rest size hsize
  split at hread
  · exact hread hstop
  · rw [Level.extends, Bool.or_eq_false_iff] at hstop
    rw [hread hstop.1]
    exact fold_of_stop e hstop.2

/-- The operands of a level are read by the reader of the next tighter one. -/
theorem Level.operand_whole {level : Level} {tokens : List Token} {e : Expr}
    (h : (level.operand e).Read ctx tokens) {rest : List Token} {size : Nat}
    (hstop : level.extendsOperand (rest.headD ctx.last) = false)
    (hsize : (tokens ++ rest).length ≤ size) :
    level.operandReader (Expr.parser.below size) ctx (tokens ++ rest) = .ok e rest := by
  cases level with
  | product => exact h rest size hstop hsize
  | sum | comparison | conjunction | disjunction =>
    exact Level.Read.whole (show Level.Read _ ctx tokens e from h) hstop hsize

private theorem operators_read {tokens : List Token} {e : Expr}
    (h : Spells ctx.path Apart tokens (.level .disjunction e))
    (hread : (Phrase.level .disjunction e).Read ctx tokens) (hopen : ¬EndsBlock tokens) :
    (Phrase.expression e).Read ctx tokens := by
  intro rest hclosed
  obtain ⟨first, more, rfl, hstarts⟩ := h.exists_cons rfl
  obtain ⟨hfn, hif, hcase⟩ := not_form_of_startsOperand hstarts
  have hstop : extendsExpression (rest.headD ctx.last) = false := hclosed.resolve_left hopen
  have hwhole := Level.Read.whole hread hstop (Nat.le_refl _)
  rw [List.cons_append] at hwhole
  rw [parser_apply, List.cons_append, Expr.form, peek_bind_cons, if_neg hfn, if_neg (by simp [hif]),
    if_neg (by simp [hcase])]
  exact hwhole

private theorem operand_read {level : Level} {tokens : List Token} {e : Expr}
    (hread : (level.operand e).Read ctx tokens) : (Phrase.level level e).Read ctx tokens := by
  intro rest size hsize
  split
  · next hlevel =>
    subst hlevel
    intro hstop
    rw [Level.extends, Bool.or_eq_false_iff] at hstop
    have hleft := Level.operand_whole hread hstop.1 hsize
    rw [Level.reader_comparison, bind_of_ok hleft, peek_bind, if_neg (by rw [hstop.2]; decide)]
    rfl
  · next hlevel =>
    intro hstop
    rw [Level.reader_eq_chain hlevel, Expr.chain,
      bind_of_ok (Level.operand_whole hread hstop hsize)]

/-- An operator and its right operand are read behind a left operand. -/
theorem operation_step {level : Level} {right : List Token} {operator : Token} {b : Expr}
    (hright : (level.operand b).Read ctx right) (a : Expr) {rest : List Token} {size : Nat}
    (hstop : level.extendsOperand (rest.headD ctx.last) = false)
    (hsize : (right ++ rest).length ≤ size) :
    Expr.operation (level.operandReader (Expr.parser.below size)) a ctx
      (operator :: (right ++ rest)) =
        .ok (.binary a operator b (operator.location ctx.path)) rest := by
  rw [Expr.operation, advance_bind_cons, bind_of_ok (Level.operand_whole hright hstop hsize)]
  rfl

private theorem operation_read {level : Level} {left right : List Token} {operator : Token}
    {a b : Expr}
    (hleft : (level.left a).Read ctx left) (hoperator : level.isOperator operator = true)
    (hright : (level.operand b).Read ctx right) :
    (Phrase.level level (.binary a operator b (operator.location ctx.path))).Read ctx
      (left ++ operator :: right) := by
  intro rest size hsize
  have hstopLeft := Level.extendsOperand_of_isOperator hoperator
  simp only [List.append_assoc, List.cons_append] at hsize ⊢
  have hshort : (right ++ rest).length ≤ size := by
    simp only [List.length_append, List.length_cons] at hsize ⊢
    omega
  split
  · next hlevel =>
    subst hlevel
    intro hstop
    rw [Level.extends, Bool.or_eq_false_iff] at hstop
    have hreadLeft : Level.comparison.operandReader (Expr.parser.below size) ctx
        (left ++ operator :: (right ++ rest)) = .ok a (operator :: (right ++ rest)) :=
      Level.operand_whole (show (Level.comparison.operand a).Read ctx left from hleft) hstopLeft
        hsize
    rw [Level.reader_comparison, bind_of_ok hreadLeft, peek_bind_cons, if_pos hoperator]
    exact operation_step hright a hstop.1 hshort
  · next hlevel =>
    intro hstop
    have hleft : Level.Read level ctx left a := by
      cases level <;> first | exact hleft | exact absurd rfl hlevel
    have hreadLeft := hleft (operator :: (right ++ rest)) size hsize
    rw [if_neg hlevel] at hreadLeft
    rw [hreadLeft hstopLeft]
    refine fold_of_more hoperator (operation_step hright a hstop hshort) ?_
    simp only [List.length_append, List.length_cons]
    omega

/-- An access is complete in front of a token that is not a dot. -/
theorem access_whole {tokens : List Token} {e : Expr} (h : (Phrase.access e).Read ctx tokens)
    {rest : List Token} {size : Nat} (hdot : (rest.headD ctx.last).kind ≠ .dot)
    (hsize : (tokens ++ rest).length ≤ size) :
    Expr.access (Expr.parser.below size) ctx (tokens ++ rest) = .ok e rest := by
  rw [h rest size hsize]
  refine fold_of_stop e ?_
  rw [beq_eq_false_iff_ne.mpr hdot, Bool.false_and]

/-- A token that does not extend a call is not a dot. -/
theorem kind_ne_dot_of_extendsCall {token : Token} (h : extendsCall token = false) :
    token.kind ≠ .dot := by
  intro hkind
  simp [extendsCall, hkind] at h

/-- Another argument is not a dot, and neither is a token that does not extend a call. -/
theorem kind_ne_dot_of_arguments {tokens rest : List Token} {es : List Expr}
    (h : Spells ctx.path Apart tokens (.arguments es))
    (hstop : extendsCall (rest.headD ctx.last) = false) :
    ((tokens ++ rest).headD ctx.last).kind ≠ .dot := by
  rcases h.starts with ⟨_, rfl⟩ | ⟨first, more, rfl, hstarts⟩
  · exact kind_ne_dot_of_extendsCall hstop
  · exact (plain_of_starts hstarts).1

private theorem callee_read {tokens : List Token} {e : Expr}
    (hread : (Phrase.access e).Read ctx tokens) :
    (Phrase.call e).Read ctx tokens := by
  intro rest size hstop hsize
  have hdot := kind_ne_dot_of_extendsCall hstop
  have hmore : ((rest.headD ctx.last).kind.startsArgument || (rest.headD ctx.last).isTruth) =
    false := by
    rw [extendsCall, Bool.or_assoc, Bool.or_eq_false_iff] at hstop
    exact hstop.2
  rw [Expr.callForm, peek_bind, bind_of_ok (access_whole hread hdot hsize),
    bind_of_ok (many_of_stop hmore)]
  rfl

private theorem call_read {start : Token} {callee rest : List Token} {e : Expr}
    {arguments : List Expr}
    (hcallee : (Phrase.access e).Read ctx callee) (hstart : callee.head? = some start)
    (hspells : Spells ctx.path Apart rest (.arguments arguments))
    (harguments : (Phrase.arguments arguments).Read ctx rest) (hne : arguments ≠ []) :
    (Phrase.call (.call e arguments (start.location ctx.path))).Read ctx (callee ++ rest) := by
  intro behind size hstop hsize
  rw [List.append_assoc] at hsize ⊢
  have hreadCallee := access_whole hcallee (kind_ne_dot_of_arguments hspells hstop) hsize
  have hreadArguments := harguments behind size hstop (by
    rw [List.length_append] at hsize
    omega)
  have hhead : (callee ++ (rest ++ behind)).headD ctx.last = start := by
    simp [hstart]
  rw [Expr.callForm, peek_bind, bind_of_ok hreadCallee, bind_of_ok hreadArguments,
    if_neg (by simpa using hne), hhead]
  rfl

private theorem argument_read {first rest : List Token} {e : Expr} {es : List Expr}
    (hfirst : Spells ctx.path Apart first (.access e)) (hread : (Phrase.access e).Read ctx first)
    (hminus : ∀ token ∈ first.head?, token.kind ≠ .minus)
    (hspells : Spells ctx.path Apart rest (.arguments es))
    (hrest : (Phrase.arguments es).Read ctx rest) :
    (Phrase.arguments (e :: es)).Read ctx (first ++ rest) := by
  intro behind size hstop hsize
  rw [List.append_assoc] at hsize ⊢
  have hreadFirst := access_whole hread (kind_ne_dot_of_arguments hspells hstop) hsize
  have hreadRest := hrest behind size hstop (by
    rw [List.length_append] at hsize
    omega)
  obtain ⟨start, more, rfl, hstarts⟩ := hfirst.exists_cons rfl
  refine many_of_more ?_ hreadFirst (by simp only [List.length_append, List.length_cons]; omega)
    hreadRest
  have hkind : start.kind ≠ .minus := hminus start (by simp)
  simpa [Phrase.starts, startsOperand, hkind] using hstarts

private theorem object_read {tokens : List Token} {e : Expr}
    (h : Spells ctx.path Apart tokens (.primary e))
    (hread : (Phrase.primary e).Read ctx tokens) : (Phrase.access e).Read ctx tokens := by
  intro rest size hsize
  obtain ⟨start, more, rfl, -⟩ := h.exists_cons rfl
  rw [Expr.access, peek_bind, bind_of_ok (hread rest size hsize)]
  rfl

private theorem get_read {start dot name : Token} {object : List Token} {e : Expr}
    (hread : (Phrase.access e).Read ctx object) (hstart : object.head? = some start)
    (hdot : dot.kind = .dot) (hname : name.kind = .ident) :
    (Phrase.access (.get e name (start.location ctx.path))).Read ctx (object ++ [dot, name]) := by
  intro rest size hsize
  have hhead : (object ++ [dot, name]).headD ctx.last = start := by simp [hstart]
  have hobject : object.headD ctx.last = start := by simp [hstart]
  simp only [List.append_assoc, List.cons_append, List.nil_append] at hsize ⊢
  rw [hread _ size hsize, hhead, hobject]
  exact fold_of_more (by simp [hdot, hname]) rfl (by simp only [List.length_cons]; omega)

private theorem literal_read {token : Token}
    (h : token.kind = .number ∨ token.kind = .text ∨ token.isTruth = true) :
    (Phrase.primary (.literal token.value (token.location ctx.path))).Read ctx [token] := by
  intro rest size _
  rw [List.singleton_append, Expr.primary, peek_bind_cons, peekSecond_bind_cons, if_pos h]
  rfl

private theorem negative_read {minus number : Token} {value : Value} (hminus : minus.kind = .minus)
    (hnumber : number.kind = .number) (hvalue : number.value.negate = .ok value) :
    (Phrase.primary (.literal value (minus.location ctx.path))).Read ctx [minus, number] := by
  intro rest size _
  have hliteral : ¬(minus.kind = .number ∨ minus.kind = .text ∨ minus.isTruth = true) := by
    simp [hminus, Lexeme.isTruth]
  rw [List.cons_append, List.singleton_append, Expr.primary, peek_bind_cons, peekSecond_bind_cons,
    if_neg hliteral, if_pos ⟨hminus, hnumber⟩, advance_bind_cons, advance_bind_cons, Expr.negated,
    hvalue]
  rfl

private theorem reference_read {name : Token} (h : name.kind = .ident ∨ name.kind = .uident) :
    (Phrase.primary (.reference name (name.location ctx.path))).Read ctx [name] := by
  intro rest size _
  have hliteral : ¬(name.kind = .number ∨ name.kind = .text ∨ name.isTruth = true) := by
    rcases h with h | h <;> simp [h, Lexeme.isTruth]
  have hminus : ¬(name.kind = .minus ∧ (rest.headD ctx.last).kind = .number) := by
    rcases h with h | h <;> simp [h]
  rw [List.singleton_append, Expr.primary, peek_bind_cons, peekSecond_bind_cons, if_neg hliteral,
    if_neg hminus, if_pos h]
  rfl

/-- An opening bracket leads to the reader of its form. -/
theorem primary_of_opener {opener : Token} (expr : Parser Expr)
    (h : opener.kind = .lparen ∨ opener.kind = .lbracket ∨ opener.kind = .lbrace)
    (tokens : List Token) :
    Expr.primary expr ctx (opener :: tokens) =
      (if opener.kind = .lparen then Expr.groupingForm expr
      else if opener.kind = .lbracket then Expr.listForm expr
      else Expr.recordForm expr) ctx (opener :: tokens) := by
  rw [Expr.primary, peek_bind_cons, peekSecond_bind_cons]
  rcases h with h | h | h <;> simp [h, Lexeme.isTruth]

private theorem grouping_read {opener closer : Token} {before inner behind : List Token} {e : Expr}
    (hopener : opener.kind = .lparen) (hbefore : Newlines before)
    (hspells : Spells ctx.path Apart inner (.expression e))
    (hread : (Phrase.expression e).Read ctx inner)
    (hbehind : Newlines behind) (hcloser : closer.kind = .rparen) :
    (Phrase.primary (.grouping e (opener.location ctx.path))).Read ctx
      (opener :: (before ++ (inner ++ (behind ++ [closer])))) := by
  intro rest size hsize
  simp only [List.append_assoc, List.cons_append, List.nil_append, List.length_append,
    List.length_cons] at hsize ⊢
  have hstops : extendsExpression closer = false := extendsExpression_eq_false (by simp [hcloser])
  have hstart : ∀ token ∈ (inner ++ (behind ++ closer :: rest)).head?, token.kind ≠ .newline :=
    fun token htoken =>
      kind_ne_newline_of_startsExpression (hspells.starts_append rfl _ token htoken)
  have hinner : (Expr.parser.below size) ctx (inner ++ (behind ++ closer :: rest)) =
      .ok e (behind ++ closer :: rest) := by
    rw [below_of_lt (by simp only [List.length_append, List.length_cons]; omega)]
    exact hread _ (.inr (extendsExpression_newlines hbehind hstops))
  rw [primary_of_opener _ (.inl hopener), if_pos hopener, Expr.groupingForm, advance_bind_cons,
    skipNewlines_run hbefore hstart, bind_of_ok hinner,
    skipNewlines_run hbehind (by simp [hcloser]), bind_of_ok (expect_any_cons hcloser _ _)]
  rfl

/-- The first token of a spelling followed by other tokens is one with which the phrase starts, or
the first of the others. -/
theorem Spells.head_append {P : Token → Prop} {tokens rest : List Token} {phrase : Phrase}
    (h : Spells ctx.path Apart tokens phrase)
    (hstarts : ∀ token, phrase.starts token = true → P token)
    (hrest : P (rest.headD ctx.last)) : P ((tokens ++ rest).headD ctx.last) := by
  rcases h.starts with ⟨_, rfl⟩ | ⟨first, more, rfl, hfirst⟩
  · exact hrest
  · exact hstarts first hfirst

/-- What holds of the next token holds of the first one. -/
theorem forall_head_of_headD (last : Token) {P : Token → Prop} {tokens : List Token}
    (h : P (tokens.headD last)) :
    ∀ token ∈ tokens.head?, P token := by
  cases tokens with
  | nil => simp
  | cons first more =>
    intro token htoken
    obtain rfl : first = token := by simpa using htoken
    exact h

/-- Tokens with which an expression starts are not separators. -/
theorem not_separator_of_startsExpression {token : Token} (h : startsExpression token = true) :
    token.kind ≠ .newline ∧ token.kind ≠ .comma := by
  have hkind := kind_of_startsExpression h
  constructor <;> intro hwrong <;> simp [hwrong] at hkind

private theorem list_read {opener closer : Token} {separators items : List Token}
    {elements : List Expr}
    (hopener : opener.kind = .lbracket) (hseparators : Separators separators)
    (hspells : Spells ctx.path Apart items (.elements elements))
    (hread : (Phrase.elements elements).Read ctx items) (hcloser : closer.kind = .rbracket) :
    (Phrase.primary (.list elements (opener.location ctx.path))).Read ctx
      (opener :: (separators ++ (items ++ [closer]))) := by
  intro rest size hsize
  simp only [List.append_assoc, List.cons_append, List.nil_append, List.length_append,
    List.length_cons] at hsize ⊢
  have hhead : ∀ token ∈ (items ++ closer :: rest).head?,
      token.kind ≠ .newline ∧ token.kind ≠ .comma :=
    forall_head_of_headD ctx.last (hspells.head_append
      (fun _ => not_separator_of_startsExpression) (by simp [hcloser]))
  have hitems := hread (closer :: rest) size opener hcloser
    (by simp only [List.length_append, List.length_cons]; omega)
  have hparen : opener.kind ≠ .lparen := by simp [hopener]
  rw [primary_of_opener _ (.inr (.inl hopener)), if_neg hparen, if_pos hopener, Expr.listForm,
    advance_bind_cons, skipSeparators_run hseparators hhead, bind_of_ok hitems, advance_bind_cons]
  rfl

private theorem element_read {first separators rest : List Token} {e : Expr} {es : List Expr}
    (hspells : Spells ctx.path Apart first (.expression e))
    (hfirst : (Phrase.expression e).Read ctx first)
    (hseparators : Separators separators) (hapart : Apart first (separators ++ rest))
    (hrestSpells : Spells ctx.path Apart rest (.elements es))
    (hrest : (Phrase.elements es).Read ctx rest) :
    (Phrase.elements (e :: es)).Read ctx (first ++ (separators ++ rest)) := by
  intro behind size place hcloser hsize
  have hstops : extendsExpression (behind.headD ctx.last) = false :=
    extendsExpression_eq_false (by rw [hcloser]; decide)
  have hhead : ∀ token ∈ (rest ++ behind).head?, token.kind ≠ .newline ∧ token.kind ≠ .comma :=
    forall_head_of_headD ctx.last (hrestSpells.head_append
      (fun _ => not_separator_of_startsExpression) (by rw [hcloser]; decide))
  have hclosed := hapart.closed hstops
  obtain ⟨start, more, rfl, hstarts⟩ := hspells.exists_cons rfl
  have hkind := kind_of_startsExpression hstarts
  have hbracket : start.kind ≠ .rbracket := fun hwrong => by simp [hwrong] at hkind
  have heof : start.kind ≠ .eof := fun hwrong => by simp [hwrong] at hkind
  simp only [List.append_assoc, List.cons_append, List.length_append, List.length_cons]
    at hsize hfirst hclosed ⊢
  have hreadFirst : (Expr.parser.below size) ctx
      (start :: (more ++ (separators ++ (rest ++ behind)))) =
        .ok e (separators ++ (rest ++ behind)) := by
    rw [below_of_lt (by simp only [List.length_append, List.length_cons]; omega)]
    exact hfirst _ hclosed
  have hreadRest := hrest behind size place hcloser (by rw [List.length_append]; omega)
  refine many_of_more (by simpa using hbracket) ?_ ?_ hreadRest
  · rw [peek_bind_cons, if_neg heof, bind_of_ok hreadFirst, skipSeparators_run hseparators hhead]
    rfl
  · simp only [List.length_append, List.length_cons]
    omega

/-- Fields start with a key, which is not a separator. -/
theorem not_separator_of_fields {added : List (String × Expr)} {token : Token}
    (h : (Phrase.fields added).starts token = true) :
    token.kind ≠ .newline ∧ token.kind ≠ .comma := by
  have hkind : token.kind = .ident := by simpa [Phrase.starts] using h
  rw [hkind]
  decide

/-- The fields of a record are read up to its closing brace, behind separators of any number. -/
theorem fields_run {separators items : List Token} {added : List (String × Expr)}
    {closer start : Token} {rest : List Token} {size : Nat} (hseparators : Separators separators)
    (hspells : Spells ctx.path Apart items (.fields added))
    (hread : (Phrase.fields added).Read ctx items)
    (hkeys : (added.map Prod.fst).Nodup) (hcloser : closer.kind = .rbrace)
    (hsize : (items ++ closer :: rest).length < size) :
    Expr.fields (Expr.parser.below size) start ctx (separators ++ (items ++ closer :: rest)) =
      .ok added rest := by
  have hhead : ∀ token ∈ (items ++ closer :: rest).head?,
      token.kind ≠ .newline ∧ token.kind ≠ .comma :=
    forall_head_of_headD ctx.last
      (hspells.head_append (fun _ => not_separator_of_fields) (by simp [hcloser]))
  have hitems := hread (closer :: rest) size start [] hcloser hsize hkeys
  rw [Expr.fields, skipSeparators_run hseparators hhead, bind_of_ok hitems]
  rfl

private theorem field_read {key colon : Token} {first separators rest : List Token} {e : Expr}
    {added : List (String × Expr)} (hkey : key.kind = .ident) (hcolon : colon.kind = .colon)
    (hfirst : (Phrase.expression e).Read ctx first) (hseparators : Separators separators)
    (hapart : Apart first (separators ++ rest))
    (hrestSpells : Spells ctx.path Apart rest (.fields added))
    (hrest : (Phrase.fields added).Read ctx rest) :
    (Phrase.fields ((key.text, e) :: added)).Read ctx
      (key :: colon :: (first ++ (separators ++ rest))) := by
  intro behind size start known hcloser hsize hkeys
  have hstops : extendsExpression (behind.headD ctx.last) = false :=
    extendsExpression_eq_false (by rw [hcloser]; decide)
  have hhead : ∀ token ∈ (rest ++ behind).head?, token.kind ≠ .newline ∧ token.kind ≠ .comma :=
    forall_head_of_headD ctx.last
      (hrestSpells.head_append (fun _ => not_separator_of_fields) (by rw [hcloser]; decide))
  have hclosed := hapart.closed hstops
  have hnew : Dictionary.has key.text known = false := by
    rw [Dictionary.has, List.any_eq_false]
    intro entry hentry hsame
    rw [List.map_append, List.nodup_append] at hkeys
    exact hkeys.2.2 entry.1 (List.mem_map_of_mem hentry) key.text (by simp) (beq_iff_eq.mp hsame)
  simp only [List.append_assoc, List.cons_append, List.length_append, List.length_cons]
    at hsize hclosed ⊢
  have hreadFirst : (Expr.parser.below size) ctx (first ++ (separators ++ (rest ++ behind))) =
      .ok e (separators ++ (rest ++ behind)) := by
    rw [below_of_lt (by simp only [List.length_append]; omega)]
    exact hfirst _ hclosed
  have hreadRest := hrest behind size start (known ++ [(key.text, e)]) hcloser
    (by rw [List.length_append]; omega) (by simpa using hkeys)
  have hstep : Expr.field (Expr.parser.below size) start known ctx
      (key :: colon :: (first ++ (separators ++ (rest ++ behind)))) =
        .ok (known ++ [(key.text, e)]) (rest ++ behind) := by
    rw [Expr.field, peek_bind_cons, if_neg (by simp [hkey]), bind_of_ok (expect_any_cons hkey _ _),
      if_neg (by simp [hnew]), bind_of_ok (expect_any_cons hcolon _ _), bind_of_ok hreadFirst,
      skipSeparators_run hseparators hhead, Dictionary.put_of_not_has e hnew]
    rfl
  rw [fold_of_more (by simp [hkey]) hstep ?_, hreadRest, List.append_assoc, List.singleton_append]
  simp only [List.length_append, List.length_cons]
  omega

private theorem record_read {opener closer : Token} {lines items : List Token}
    {added : List (String × Expr)} (hopener : opener.kind = .lbrace) (hlines : Newlines lines)
    (hspells : Spells ctx.path Apart items (.fields added))
    (hread : (Phrase.fields added).Read ctx items)
    (hkeys : (added.map Prod.fst).Nodup) (hcloser : closer.kind = .rbrace) :
    (Phrase.primary (.record added (opener.location ctx.path))).Read ctx
      (opener :: (lines ++ (items ++ [closer]))) := by
  intro rest size hsize
  simp only [List.append_assoc, List.cons_append, List.nil_append, List.length_append,
    List.length_cons] at hsize ⊢
  have hhead : ∀ token ∈ (items ++ closer :: rest).head?, token.kind ≠ .newline :=
    forall_head_of_headD ctx.last
      (hspells.head_append (fun _ h => (not_separator_of_fields h).1) (by simp [hcloser]))
  -- Without a target the record is empty, or its first key has a colon behind it.
  have htest : ((items ++ closer :: rest).headD ctx.last).kind = .rbrace ∨
      ((items ++ closer :: rest).headD ctx.last).kind = .ident ∧
        ((items ++ closer :: rest).getD 1 ctx.last).kind = .colon := by
    cases hspells with
    | noFields => exact .inl hcloser
    | field hkey hcolon => exact .inr ⟨hkey, hcolon⟩
  have hfields : Expr.fields (Expr.parser.below size) opener ctx
      ([] ++ (items ++ closer :: rest)) = .ok added rest :=
    fields_run (by simp [Separators]) hspells hread hkeys hcloser
      (by simp only [List.length_append, List.length_cons]; omega)
  have hparen : opener.kind ≠ .lparen := by simp [hopener]
  have hbracket : opener.kind ≠ .lbracket := by simp [hopener]
  rw [primary_of_opener _ (.inr (.inr hopener)), if_neg hparen, if_neg hbracket, Expr.recordForm,
    advance_bind_cons, skipNewlines_run hlines hhead, peek_bind, peekSecond_bind, if_pos htest]
  rw [List.nil_append] at hfields
  rw [bind_of_ok hfields]
  rfl

/-- The tokens do not start with a key and its colon. -/
def NotKey (tokens : List Token) : Prop :=
  ∀ first second more, tokens = first :: second :: more → first.kind = .ident →
    second.kind ≠ .colon

/-- Tokens that do not start with a key stay so if no colon follows them. -/
theorem NotKey.append {tokens more : List Token} (h : NotKey tokens) (hne : tokens ≠ [])
    (hmore : ∀ token ∈ more.head?, token.kind ≠ .colon) : NotKey (tokens ++ more) := by
  intro first second behind heq hfirst
  match tokens, hne with
  | [token], _ =>
    obtain ⟨rfl, rfl⟩ : token = first ∧ more = second :: behind := by simpa using heq
    exact hmore second rfl
  | token :: next :: tokens, _ =>
    obtain ⟨rfl, rfl, -⟩ : token = first ∧ next = second ∧ tokens ++ more = behind := by
      simpa using heq
    exact h token next tokens rfl hfirst

private theorem notKey_cons {token : Token} (h : token.kind ≠ .ident) (tokens : List Token) :
    NotKey (token :: tokens) := by
  intro first second more heq hfirst
  obtain ⟨rfl, -⟩ : token = first ∧ tokens = second :: more := by simpa using heq
  exact absurd hfirst h

/-- Only the fields of a record start with a key and its colon. -/
theorem Spells.notKey {tokens : List Token} {phrase : Phrase} (h : Spells path Apart tokens phrase)
    (hphrase : ∀ added, phrase ≠ .fields added) : NotKey tokens := by
  have head_ne_colon : ∀ {tokens : List Token} {phrase : Phrase}, Spells path Apart tokens phrase →
      ∀ token ∈ tokens.head?, token.kind ≠ .colon := by
    intro tokens phrase hspells token htoken hcolon
    rcases hspells.starts with ⟨-, rfl⟩ | ⟨first, more, rfl, hstarts⟩
    · cases htoken
    · obtain rfl : first = token := by simpa using htoken
      simpa [hcolon] using kind_of_starts hstarts
  have separated_ne_colon : ∀ {separators rest : List Token} {phrase : Phrase},
      Separators separators → Spells path Apart rest phrase →
      ∀ token ∈ (separators ++ rest).head?, token.kind ≠ .colon := by
    intro separators rest phrase hseparators hrest token htoken
    cases separators with
    | nil => exact head_ne_colon hrest token htoken
    | cons first more =>
      obtain rfl : first = token := by simpa using htoken
      rcases hseparators first (by simp) with hkind | hkind <;> simp [hkind]
  induction h with
  | inline _ ih => exact ih (by simp)
  | indented hne hlines =>
    obtain ⟨token, more, rfl⟩ := List.exists_cons_of_ne_nil hne
    exact notKey_cons (by simp [hlines token (by simp)]) _
  | function hstart => exact notKey_cons (by simp [hstart]) _
  | conditional hif => exact notKey_cons (by simp [(Lexeme.isWord_iff.mp hif).1]) _
  | select hcase => exact notKey_cons (by simp [(Lexeme.isWord_iff.mp hcase).1]) _
  | operators _ ih => exact ih (by simp)
  | @operand level _ _ _ ih => exact ih (by cases level <;> simp [Level.operand])
  | @operation level _ _ operator _ _ hleft hoperator _ ih =>
    refine NotKey.append (ih (by cases level <;> simp [Level.left]))
      (hleft.ne_nil (Level.isRun_left _ _)) fun token htoken hcolon => ?_
    obtain rfl : operator = token := by simpa using htoken
    cases level <;>
      simp [Level.isOperator, Lexeme.isWord, hcolon, Kind.isComparison, Kind.isAdditive,
        Kind.isMultiplicative] at hoperator
  | callee _ ih | object _ ih => exact ih (by simp)
  | call hcallee _ hrest _ ih =>
    exact (ih (by simp)).append (hcallee.ne_nil rfl) (head_ne_colon hrest)
  | noArguments | noElements | noFields | noArms => intro _ _ _ heq; cases heq
  | argument hfirst _ hrest ih =>
    exact (ih (by simp)).append (hfirst.ne_nil rfl) (head_ne_colon hrest)
  | get hobject _ hdot _ ih => exact (ih (by simp)).append (hobject.ne_nil rfl) (by simp [hdot])
  | literal | reference => intro _ _ _ heq; cases heq
  | negative hminus => exact notKey_cons (by simp [hminus]) _
  | grouping hopener | list hopener | record hopener | update hopener =>
    exact notKey_cons (by simp [hopener]) _
  | element hfirst hseparators _ hrest ih =>
    exact (ih (by simp)).append (hfirst.ne_nil rfl) (separated_ne_colon hseparators hrest)
  | field => exact absurd rfl (hphrase _)
  | tag hsubtype => exact notKey_cons (by simp [hsubtype]) _
  | value hpattern _ _ harrow _ ih =>
    exact (ih (by simp)).append (hpattern.ne_nil rfl) (by simp [harrow])
  | nextArm hfirst hlines _ hrest ih =>
    exact (ih (by simp)).append (hfirst.ne_nil rfl) (separated_ne_colon hlines.separators hrest)

private theorem update_read {opener pipe closer : Token}
    {lines target separators items : List Token}
    {e : Expr} {added : List (String × Expr)} (hopener : opener.kind = .lbrace)
    (hlines : Newlines lines) (htarget : Spells ctx.path Apart target (.expression e))
    (hreadTarget : (Phrase.expression e).Read ctx target) (hpipe : pipe.kind = .pipe)
    (hseparators : Separators separators) (hspells : Spells ctx.path Apart items (.fields added))
    (hread : (Phrase.fields added).Read ctx items) (hkeys : (added.map Prod.fst).Nodup)
    (hcloser : closer.kind = .rbrace) :
    (Phrase.primary (.update e added (opener.location ctx.path))).Read ctx
      (opener :: (lines ++ (target ++ pipe :: (separators ++ (items ++ [closer]))))) := by
  intro rest size hsize
  simp only [List.append_assoc, List.cons_append, List.nil_append, List.length_append,
    List.length_cons] at hsize ⊢
  have hstops : extendsExpression pipe = false := extendsExpression_eq_false (by simp [hpipe])
  have hhead : ∀ token ∈ (target ++ pipe :: (separators ++ (items ++ closer :: rest))).head?,
      token.kind ≠ .newline := fun token htoken =>
    kind_ne_newline_of_startsExpression (htarget.starts_append rfl _ token htoken)
  have hnotKey : NotKey (target ++ pipe :: (separators ++ (items ++ closer :: rest))) :=
    (htarget.notKey (by simp)).append (htarget.ne_nil rfl) (by simp [hpipe])
  have htest :
    ¬(((target ++ pipe :: (separators ++ (items ++ closer :: rest))).headD ctx.last).kind =
        .rbrace ∨
      ((target ++ pipe :: (separators ++ (items ++ closer :: rest))).headD ctx.last).kind = .ident ∧
        ((target ++ pipe :: (separators ++ (items ++ closer :: rest))).getD 1 ctx.last).kind =
          .colon) := by
    obtain ⟨first, more, rfl, hstarts⟩ := htarget.exists_cons rfl
    obtain ⟨second, behind, hsecond⟩ : ∃ second behind,
        more ++ pipe :: (separators ++ (items ++ closer :: rest)) = second :: behind := by
      cases more <;> simp
    rw [List.cons_append, hsecond] at hnotKey ⊢
    rintro (hbrace | ⟨hident, hcolon⟩)
    · simpa [show first.kind = .rbrace from hbrace] using kind_of_startsExpression hstarts
    · exact hnotKey first second behind rfl hident hcolon
  have htargetRead : (Expr.parser.below size) ctx
      (target ++ pipe :: (separators ++ (items ++ closer :: rest))) =
        .ok e (pipe :: (separators ++ (items ++ closer :: rest))) := by
    rw [below_of_lt (by simp only [List.length_append, List.length_cons]; omega)]
    exact hreadTarget _ (.inr hstops)
  have hfields : Expr.fields (Expr.parser.below size) opener ctx
      (separators ++ (items ++ closer :: rest)) = .ok added rest :=
    fields_run hseparators hspells hread hkeys hcloser
      (by simp only [List.length_append, List.length_cons]; omega)
  have hparen : opener.kind ≠ .lparen := by simp [hopener]
  have hbracket : opener.kind ≠ .lbracket := by simp [hopener]
  rw [primary_of_opener _ (.inr (.inr hopener)), if_neg hparen, if_neg hbracket, Expr.recordForm,
    advance_bind_cons, skipNewlines_run hlines hhead, peek_bind, peekSecond_bind, if_neg htest,
    bind_of_ok htargetRead, bind_of_ok (expect_any_cons hpipe _ _), bind_of_ok hfields]
  rfl

private theorem tag_read {subtype arrow : Token} {names result : List Token} {e : Expr}
    (hsubtype : subtype.kind = .uident) (hnames : Names names) (harrow : arrow.kind = .arrow)
    (hresult : Spells ctx.path Apart result (.block e)) (hread : (Phrase.block e).Read ctx result) :
    (Phrase.arm (.tag subtype names e (subtype.location ctx.path))).Read ctx
      (subtype :: (names ++ arrow :: result)) := by
  intro rest size hclosed hsize
  have hclosedResult : Closed result (rest.headD ctx.last) :=
    hclosed.of_suffix ⟨subtype :: (names ++ [arrow]), by simp⟩ (hresult.ne_nil rfl)
  simp only [List.append_assoc, List.cons_append, List.length_append, List.length_cons] at hsize ⊢
  have hblock := hread rest size hclosedResult (by rw [List.length_append]; omega)
  rw [Expr.arm, peek_bind_cons, if_pos hsubtype, advance_bind_cons,
    parameters_run hnames (by simp [harrow]), bind_of_ok (expect_any_cons harrow _ _),
    bind_of_ok hblock]
  rfl

private theorem value_read {start arrow : Token} {pattern result : List Token} {p e : Expr}
    (hpattern : (Phrase.primary p).Read ctx pattern) (hstart : pattern.head? = some start)
    (hkind : start.kind ≠ .uident) (harrow : arrow.kind = .arrow)
    (hresult : Spells ctx.path Apart result (.block e)) (hread : (Phrase.block e).Read ctx result) :
    (Phrase.arm (.value p [] e (start.location ctx.path))).Read ctx
    (pattern ++ arrow :: result) := by
  intro rest size hclosed hsize
  have hclosedResult : Closed result (rest.headD ctx.last) :=
    hclosed.of_suffix ⟨pattern ++ [arrow], by simp⟩ (hresult.ne_nil rfl)
  have hhead : (pattern ++ arrow :: (result ++ rest)).headD ctx.last = start := by simp [hstart]
  simp only [List.append_assoc, List.cons_append] at hsize ⊢
  have hprimary := hpattern (arrow :: (result ++ rest)) size (by omega)
  have hblock := hread rest size hclosedResult (by
    simp only [List.length_append, List.length_cons] at hsize ⊢
    omega)
  rw [Expr.arm, peek_bind, hhead, if_neg hkind, bind_of_ok hprimary,
    bind_of_ok (expect_any_cons harrow _ _), bind_of_ok hblock]
  rfl

private theorem nextArm_read {first lines rest : List Token} {arm : Arm} {arms : List Arm}
    (hspells : Spells ctx.path Apart first (.arm arm)) (hfirst : (Phrase.arm arm).Read ctx first)
    (hlines : Newlines lines) (hapart : Apart first (lines ++ rest))
    (hrestSpells : Spells ctx.path Apart rest (.arms arms))
    (hrest : (Phrase.arms arms).Read ctx rest) :
    (Phrase.arms (arm :: arms)).Read ctx (first ++ (lines ++ rest)) := by
  intro behind size hdedent hsize
  have hstops : extendsExpression (behind.headD ctx.last) = false :=
    extendsExpression_eq_false (by rw [hdedent]; decide)
  have hhead : ∀ token ∈ (rest ++ behind).head?, token.kind ≠ .newline :=
    forall_head_of_headD ctx.last (hrestSpells.head_append (fun _ hstarts =>
      kind_ne_newline_of_startsExpression (startsExpression_of_startsOperand hstarts))
      (by rw [hdedent]; decide))
  have hclosed := hapart.closed hstops
  have hne : 0 < first.length := List.length_pos_iff.mpr (hspells.ne_nil rfl)
  have hmore : ((first ++ (lines ++ (rest ++ behind))).headD ctx.last).kind ≠ .dedent ∧
      ((first ++ (lines ++ (rest ++ behind))).headD ctx.last).kind ≠ .eof := by
    obtain ⟨start, more, rfl, hstarts⟩ := hspells.exists_cons rfl
    have hkind := kind_of_starts hstarts
    constructor <;> intro hwrong <;>
      simp [show start.kind = _ from hwrong] at hkind
  simp only [List.append_assoc, List.length_append] at hsize hclosed ⊢
  have hreadFirst := hfirst (lines ++ (rest ++ behind)) size hclosed
    (by simp only [List.length_append]; omega)
  have hreadRest := hrest behind size hdedent (by rw [List.length_append]; omega)
  refine many_of_more (by simpa using hmore) ?_ ?_ hreadRest
  · rw [bind_of_ok hreadFirst, skipNewlines_run hlines hhead]
    rfl
  · simp only [List.length_append]
    omega

/-- Whether the phrase is an operand or a run of arguments, which no block can end. -/
def Phrase.isOperand : Phrase → Bool
  | level _ _ | call _ | arguments _ | access _ | primary _ => true
  | _ => false

private theorem EndsBlock.or_of_append {before tokens : List Token}
    (h : EndsBlock (before ++ tokens)) :
    EndsBlock before ∨ EndsBlock tokens := by
  by_cases hne : tokens = []
  · subst hne
    rw [List.append_nil] at h
    exact .inl h
  · exact .inr (h.of_append hne)

/-- An operand does not end with a block: the forms that can are not operands. -/
theorem Spells.not_endsBlock {tokens : List Token} {phrase : Phrase}
    (h : Spells path Apart tokens phrase) (hphrase : phrase.isOperand = true) :
    ¬EndsBlock tokens := by
  induction h with
  | inline | indented | function | conditional | select | operators => cases hphrase
  | noElements | element | noFields | field | tag | value | noArms | nextArm => cases hphrase
  | @operand level _ _ _ ih => exact ih (by cases level <;> rfl)
  | @operation level _ _ _ _ _ _ _ hright _ ih =>
    intro hblock
    have hnext := hblock.of_append (List.cons_ne_nil _ _)
    exact ih (by cases level <;> rfl) (hnext.of_cons (hright.ne_nil (Level.isRun_operand _ _)))
  | callee _ ih | object _ ih => exact ih rfl
  | call _ _ _ _ ihcallee ihrest =>
    intro hblock
    exact hblock.or_of_append.elim (ihcallee rfl) (ihrest rfl)
  | argument _ _ _ ihfirst ihrest =>
    intro hblock
    exact hblock.or_of_append.elim (ihfirst rfl) (ihrest rfl)
  | noArguments => simp [EndsBlock]
  | get _ _ _ hname => simp [EndsBlock, hname]
  | literal htoken =>
    rw [endsBlock_singleton]
    intro hwrong
    simp [hwrong, Lexeme.isTruth] at htoken
  | negative _ hnumber => simp [EndsBlock, hnumber]
  | reference hname =>
    rw [endsBlock_singleton]
    intro hwrong
    simp [hwrong] at hname
  | grouping _ _ _ _ hcloser | list _ _ _ hcloser | record _ _ _ _ hcloser
  | update _ _ _ _ _ _ _ hcloser => simp [EndsBlock, List.getLast?_cons, hcloser]

/-- The readers accept every spelled phrase in front of a token that does not extend it, and read
it as the tree that it was spelled for. -/
theorem Spells.read (ctx : Context) {tokens : List Token} {phrase : Phrase}
    (h : Spells ctx.path Apart tokens phrase) : phrase.Read ctx tokens := by
  induction h with
  | inline hspells ih => exact inline_read hspells ih
  | indented hne hlines hindent _ hends hdedent ih =>
    exact indented_read hne hlines hindent ih hends hdedent
  | function hstart hnames harrow hbody ih => exact function_read hstart hnames harrow hbody ih
  | conditional hif _ hthen _ hlines helse helsePart ihc iht ihe =>
    exact conditional_read hif ihc hthen iht hlines helse helsePart ihe
  | select hcase _ hof hne hlines hindent _ harms hdedent ihs iharms =>
    exact select_read hcase ihs hof hne hlines hindent iharms harms hdedent
  | operators hspells ih => exact operators_read hspells ih (hspells.not_endsBlock rfl)
  | operand _ ih => exact operand_read ih
  | operation _ hoperator _ ihleft ihright => exact operation_read ihleft hoperator ihright
  | callee _ ih => exact callee_read ih
  | call _ hstart hrest hne ihcallee ihrest => exact call_read ihcallee hstart hrest ihrest hne
  | noArguments =>
    intro rest size hstop _
    rw [extendsCall, Bool.or_assoc, Bool.or_eq_false_iff] at hstop
    exact many_of_stop hstop.2
  | argument hfirst hminus hrest ihfirst ihrest =>
    exact argument_read hfirst ihfirst hminus hrest ihrest
  | object hspells ih => exact object_read hspells ih
  | get _ hstart hdot hname ih => exact get_read ih hstart hdot hname
  | literal htoken => exact literal_read htoken
  | negative hminus hnumber hvalue => exact negative_read hminus hnumber hvalue
  | reference hname => exact reference_read hname
  | grouping hopener hbefore hspells hbehind hcloser ih =>
    exact grouping_read hopener hbefore hspells ih hbehind hcloser
  | list hopener hseparators hspells hcloser ih =>
    exact list_read hopener hseparators hspells ih hcloser
  | record hopener hlines hspells hkeys hcloser ih =>
    exact record_read hopener hlines hspells ih hkeys hcloser
  | update hopener hlines htarget hpipe hseparators hspells hkeys hcloser ihtarget ihitems =>
    exact update_read hopener hlines htarget ihtarget hpipe hseparators hspells ihitems hkeys
      hcloser
  | noElements =>
    intro rest size place hcloser _
    exact many_of_stop (by simpa using hcloser)
  | element hspells hseparators happart hrest ihfirst ihrest =>
    exact element_read hspells ihfirst hseparators happart hrest ihrest
  | noFields =>
    intro rest size start known hcloser _ _
    rw [List.append_nil]
    exact fold_of_stop known (by simpa using hcloser)
  | field hkey hcolon _ hseparators happart hrest ihfirst ihrest =>
    exact field_read hkey hcolon ihfirst hseparators happart hrest ihrest
  | tag hsubtype hnames harrow hresult ih => exact tag_read hsubtype hnames harrow hresult ih
  | value _ hstart hkind harrow hresult ihpattern ihresult =>
    exact value_read ihpattern hstart hkind harrow hresult ihresult
  | noArms =>
    intro rest size hdedent _
    refine many_of_stop ?_
    rw [List.nil_append, hdedent]
    rfl
  | nextArm hspells hlines happart hrest ihfirst ihrest =>
    exact nextArm_read hspells ihfirst hlines happart hrest ihrest

end Slick.Grammar
