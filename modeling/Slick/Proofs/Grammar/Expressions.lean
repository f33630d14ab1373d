import Slick.Expr
import Slick.Proofs.Grammar.Tokens

/-!
# The grammar of expressions

`Spells path apart tokens phrase` says that the tokens spell the phrase, which is a category of the
grammar together with a tree. Every node of the tree is located at one of the tokens, in the source
with the given path. The relation knows nothing of a reader: it has no order of trials,
no lookahead and no rest of the tokens. Repeated items may stand side by side without a
separator, as in a list of two functions, so one token list may spell several trees. The parameter
`apart` says which tokens may follow an item directly. The grammar as such leaves it open
(`Derives`); a reader that takes as much as it can obeys `Grammar.Apart`.
-/

namespace Slick.Grammar

/-- A category of the grammar with the tree that a piece of source has in it. -/
inductive Phrase where
  /-- An expression on the same line, or alone in an indented block below. -/
  | block (e : Expr)
  | expression (e : Expr)
  /-- Operands of one level with its operators between them. -/
  | level (level : Level) (e : Expr)
  /-- A callee with its arguments, or the callee alone. -/
  | call (e : Expr)
  | arguments (es : List Expr)
  /-- A primary expression with accesses to its fields. -/
  | access (e : Expr)
  /-- A literal, a name or a bracketed form. -/
  | primary (e : Expr)
  /-- The elements of a list. -/
  | elements (es : List Expr)
  /-- The fields of a record with their keys. -/
  | fields (fields : List (String × Expr))
  | arm (arm : Arm)
  | arms (arms : List Arm)

/-- What stands on the right of an operator: a phrase of the next tighter level. -/
def Level.operand : Level → Expr → Phrase
  | disjunction => .level .conjunction
  | conjunction => .level .comparison
  | comparison => .level .sum
  | sum => .level .product
  | product => .call

/-- What stands on the left of an operator: a phrase of the same level, so that operators
associate to the left. A comparison has no other comparison on its left. -/
def Level.left : Level → Expr → Phrase
  | comparison => .level .sum
  | level => .level level

/-- The tokens spell the phrase. An item that is followed by other items of its kind is kept
`apart` from them. -/
inductive Spells (path : Option String) (apart : List Token → List Token → Prop) :
    List Token → Phrase → Prop where
  | inline {tokens : List Token} {e : Expr} :
    Spells path apart tokens (.expression e) → Spells path apart tokens (.block e)
  | indented {lines inner ends : List Token} {indent dedent : Token} {e : Expr} :
    lines ≠ [] → Newlines lines → indent.kind = .indent → Spells path apart inner (.expression e) →
    Newlines ends → dedent.kind = .dedent →
    Spells path apart (lines ++ indent :: (inner ++ (ends ++ [dedent]))) (.block e)
  | function {start arrow : Token} {names body : List Token} {e : Expr} :
    start.kind = .fn → Names names → arrow.kind = .arrow → Spells path apart body (.block e) →
    Spells path apart (start :: (names ++ arrow :: body))
      (.expression (.function names e (start.location path)))
  | conditional {start thenWord elseWord : Token} {condition thenPart lines elsePart : List Token}
      {c t e : Expr} :
    start.isWord "if" = true → Spells path apart condition (.expression c) →
    thenWord.isWord "then" = true → Spells path apart thenPart (.block t) → Newlines lines →
    elseWord.isWord "else" = true → Spells path apart elsePart (.block e) →
    Spells path apart
      (start :: (condition ++ thenWord :: (thenPart ++ (lines ++ elseWord :: elsePart))))
      (.expression (.conditional c t e (start.location path)))
  | select {start ofWord indent dedent : Token} {scrutinee lines armTokens : List Token} {s : Expr}
      {arms : List Arm} :
    start.isWord "case" = true → Spells path apart scrutinee (.expression s) →
    ofWord.isWord "of" = true → lines ≠ [] → Newlines lines → indent.kind = .indent →
    Spells path apart armTokens (.arms arms) → arms ≠ [] → dedent.kind = .dedent →
    Spells path apart
      (start :: (scrutinee ++ ofWord :: (lines ++ indent :: (armTokens ++ [dedent]))))
      (.expression (.select s arms (start.location path)))
  | operators {tokens : List Token} {e : Expr} :
    Spells path apart tokens (.level .disjunction e) → Spells path apart tokens (.expression e)
  | operand {level : Level} {tokens : List Token} {e : Expr} :
    Spells path apart tokens (level.operand e) → Spells path apart tokens (.level level e)
  | operation {level : Level} {left right : List Token} {operator : Token} {a b : Expr} :
    Spells path apart left (level.left a) → level.isOperator operator = true →
    Spells path apart right (level.operand b) →
    Spells path apart (left ++ operator :: right)
      (.level level (.binary a operator b (operator.location path)))
  | callee {tokens : List Token} {e : Expr} :
    Spells path apart tokens (.access e) → Spells path apart tokens (.call e)
  | call {start : Token} {callee rest : List Token} {e : Expr} {arguments : List Expr} :
    Spells path apart callee (.access e) → callee.head? = some start →
    Spells path apart rest (.arguments arguments) → arguments ≠ [] →
    Spells path apart (callee ++ rest) (.call (.call e arguments (start.location path)))
  | noArguments : Spells path apart [] (.arguments [])
  | argument {first rest : List Token} {e : Expr} {es : List Expr} :
    Spells path apart first (.access e) → (∀ token ∈ first.head?, token.kind ≠ .minus) →
    Spells path apart rest (.arguments es) →
    Spells path apart (first ++ rest) (.arguments (e :: es))
  | object {tokens : List Token} {e : Expr} :
    Spells path apart tokens (.primary e) → Spells path apart tokens (.access e)
  | get {start dot name : Token} {object : List Token} {e : Expr} :
    Spells path apart object (.access e) → object.head? = some start → dot.kind = .dot →
    name.kind = .ident →
    Spells path apart (object ++ [dot, name]) (.access (.get e name (start.location path)))
  | literal {token : Token} :
    token.kind = .number ∨ token.kind = .text ∨ token.isTruth = true →
    Spells path apart [token] (.primary (.literal token.value (token.location path)))
  | negative {minus number : Token} {value : Value} :
    minus.kind = .minus → number.kind = .number → number.value.negate = .ok value →
    Spells path apart [minus, number] (.primary (.literal value (minus.location path)))
  | reference {name : Token} :
    name.kind = .ident ∨ name.kind = .uident →
    Spells path apart [name] (.primary (.reference name (name.location path)))
  | grouping {opener closer : Token} {before inner behind : List Token} {e : Expr} :
    opener.kind = .lparen → Newlines before → Spells path apart inner (.expression e) →
    Newlines behind → closer.kind = .rparen →
    Spells path apart (opener :: (before ++ (inner ++ (behind ++ [closer]))))
      (.primary (.grouping e (opener.location path)))
  | list {opener closer : Token} {separators items : List Token} {elements : List Expr} :
    opener.kind = .lbracket → Separators separators → Spells path apart items (.elements elements) →
    closer.kind = .rbracket →
    Spells path apart (opener :: (separators ++ (items ++ [closer])))
      (.primary (.list elements (opener.location path)))
  | record {opener closer : Token} {lines items : List Token} {fields : List (String × Expr)} :
    opener.kind = .lbrace → Newlines lines → Spells path apart items (.fields fields) →
    (fields.map Prod.fst).Nodup → closer.kind = .rbrace →
    Spells path apart (opener :: (lines ++ (items ++ [closer])))
      (.primary (.record fields (opener.location path)))
  | update {opener pipe closer : Token} {lines target separators items : List Token} {e : Expr}
      {fields : List (String × Expr)} :
    opener.kind = .lbrace → Newlines lines → Spells path apart target (.expression e) →
    pipe.kind = .pipe → Separators separators → Spells path apart items (.fields fields) →
    (fields.map Prod.fst).Nodup → closer.kind = .rbrace →
    Spells path apart (opener :: (lines ++ (target ++ pipe :: (separators ++ (items ++ [closer])))))
      (.primary (.update e fields (opener.location path)))
  | noElements : Spells path apart [] (.elements [])
  | element {first separators rest : List Token} {e : Expr} {es : List Expr} :
    Spells path apart first (.expression e) → Separators separators →
    apart first (separators ++ rest) → Spells path apart rest (.elements es) →
    Spells path apart (first ++ (separators ++ rest)) (.elements (e :: es))
  | noFields : Spells path apart [] (.fields [])
  | field {key colon : Token} {first separators rest : List Token} {e : Expr}
      {fields : List (String × Expr)} :
    key.kind = .ident → colon.kind = .colon → Spells path apart first (.expression e) →
    Separators separators → apart first (separators ++ rest) →
    Spells path apart rest (.fields fields) →
    Spells path apart (key :: colon :: (first ++ (separators ++ rest)))
      (.fields ((key.text, e) :: fields))
  | tag {subtype arrow : Token} {names result : List Token} {e : Expr} :
    subtype.kind = .uident → Names names → arrow.kind = .arrow →
    Spells path apart result (.block e) →
    Spells path apart (subtype :: (names ++ arrow :: result))
      (.arm (.tag subtype names e (subtype.location path)))
  | value {start arrow : Token} {pattern result : List Token} {p e : Expr} :
    Spells path apart pattern (.primary p) → pattern.head? = some start → start.kind ≠ .uident →
    arrow.kind = .arrow → Spells path apart result (.block e) →
    Spells path apart (pattern ++ arrow :: result) (.arm (.value p [] e (start.location path)))
  | noArms : Spells path apart [] (.arms [])
  | nextArm {first lines rest : List Token} {arm : Arm} {arms : List Arm} :
    Spells path apart first (.arm arm) → Newlines lines → apart first (lines ++ rest) →
    Spells path apart rest (.arms arms) →
    Spells path apart (first ++ (lines ++ rest)) (.arms (arm :: arms))

/-- The tokens spell the phrase by the grammar alone, whatever stands side by side. -/
abbrev Derives (path : Option String) : List Token → Phrase → Prop := Spells path fun _ _ => True

variable {path : Option String}

/-- Items that are kept apart more carefully still spell the same phrase. -/
theorem Spells.mono {apart apart' : List Token → List Token → Prop}
    (happart : ∀ item rest, apart item rest → apart' item rest) {tokens : List Token}
    {phrase : Phrase} (h : Spells path apart tokens phrase) : Spells path apart' tokens phrase := by
  induction h with
  | inline _ ih => exact .inline ih
  | indented hne hlines hindent _ hends hdedent ih =>
    exact .indented hne hlines hindent ih hends hdedent
  | function hstart hnames harrow _ ih => exact .function hstart hnames harrow ih
  | conditional hif _ hthen _ hlines helse _ ihc iht ihe =>
    exact .conditional hif ihc hthen iht hlines helse ihe
  | select hcase _ hof hne hlines hindent _ harms hdedent ihs iharms =>
    exact .select hcase ihs hof hne hlines hindent iharms harms hdedent
  | operators _ ih => exact .operators ih
  | operand _ ih => exact .operand ih
  | operation _ hoperator _ ihleft ihright => exact .operation ihleft hoperator ihright
  | callee _ ih => exact .callee ih
  | call _ hstart _ hne ihcallee ihrest => exact .call ihcallee hstart ihrest hne
  | noArguments => exact .noArguments
  | argument _ hminus _ ihfirst ihrest => exact .argument ihfirst hminus ihrest
  | object _ ih => exact .object ih
  | get _ hstart hdot hname ih => exact .get ih hstart hdot hname
  | literal htoken => exact .literal htoken
  | negative hminus hnumber hvalue => exact .negative hminus hnumber hvalue
  | reference hname => exact .reference hname
  | grouping hopener hbefore _ hbehind hcloser ih =>
    exact .grouping hopener hbefore ih hbehind hcloser
  | list hopener hseparators _ hcloser ih => exact .list hopener hseparators ih hcloser
  | record hopener hlines _ hkeys hcloser ih => exact .record hopener hlines ih hkeys hcloser
  | update hopener hlines _ hpipe hseparators _ hkeys hcloser ihtarget ihitems =>
    exact .update hopener hlines ihtarget hpipe hseparators ihitems hkeys hcloser
  | noElements => exact .noElements
  | element _ hseparators hfirst _ ihfirst ihrest =>
    exact .element ihfirst hseparators (happart _ _ hfirst) ihrest
  | noFields => exact .noFields
  | field hkey hcolon _ hseparators hfirst _ ihfirst ihrest =>
    exact .field hkey hcolon ihfirst hseparators (happart _ _ hfirst) ihrest
  | tag hsubtype hnames harrow _ ih => exact .tag hsubtype hnames harrow ih
  | value _ hstart hkind harrow _ ihpattern ihresult =>
    exact .value ihpattern hstart hkind harrow ihresult
  | noArms => exact .noArms
  | nextArm _ hlines hfirst _ ihfirst ihrest =>
    exact .nextArm ihfirst hlines (happart _ _ hfirst) ihrest

/-- The category of the expressions of a rank. -/
def phraseAt : Nat → Expr → Phrase
  | 0 => .expression
  | 1 => .level .disjunction
  | 2 => .level .conjunction
  | 3 => .level .comparison
  | 4 => .level .sum
  | 5 => .level .product
  | 6 => .call
  | 7 => .access
  | _ => .primary

/-- The phrases of the rank of a level are those of the level. -/
theorem Level.phraseAt_rank (level : Level) : phraseAt level.rank = .level level := by
  cases level <;> rfl

/-- A phrase is a phrase of the next looser category. -/
theorem Spells.loosen {apart : List Token → List Token → Prop} {tokens : List Token} {e : Expr}
    {rank : Nat} (h : Spells path apart tokens (phraseAt (rank + 1) e)) :
    Spells path apart tokens (phraseAt rank e) := by
  match rank with
  | 0 => exact .operators h
  | 1 | 2 | 3 | 4 | 5 => exact .operand h
  | 6 => exact .callee h
  | 7 => exact .object h
  | _ + 8 => exact h

/-- An expression of a rank that binds tighter is also one of each rank that binds less tightly. -/
theorem Spells.of_rank_le {apart : List Token → List Token → Prop} {tokens : List Token}
    {e : Expr} {rank rank' : Nat} (hle : rank ≤ rank')
    (h : Spells path apart tokens (phraseAt rank' e)) :
    Spells path apart tokens (phraseAt rank e) := by
  induction hle with
  | refl => exact h
  | step _ ih => exact ih h.loosen

/-- Whether the phrase is a run of items, which may be empty. -/
def Phrase.isRun : Phrase → Bool
  | arguments _ | elements _ | fields _ | arms _ => true
  | _ => false

/-- Tokens with which a phrase of the category can start. -/
def Phrase.starts : Phrase → Token → Bool
  | block _, token => token.kind == .newline || startsExpression token
  | expression _, token | elements _, token => startsExpression token
  | arguments _, token => startsOperand token && token.kind != .minus
  | fields _, token => token.kind == .ident
  | _, token => startsOperand token

/-- The kinds with which phrases start. -/
theorem kind_of_starts {phrase : Phrase} {token : Token} (h : phrase.starts token = true) :
    token.kind ∈ [.newline, .minus, .number, .text, .ident, .uident, .lparen, .lbracket, .lbrace,
      .keyword, .fn] := by
  cases phrase with
  | block e =>
    simp only [Phrase.starts, Bool.or_eq_true, beq_iff_eq] at h
    rcases h with h | h
    · simp [h]
    · exact List.mem_cons_of_mem _ (kind_of_startsExpression h)
  | expression e | elements es => exact List.mem_cons_of_mem _ (kind_of_startsExpression h)
  | arguments es =>
    simp only [Phrase.starts, Bool.and_eq_true] at h
    have hstarts := startsExpression_of_startsOperand h.1
    exact List.mem_cons_of_mem _ (kind_of_startsExpression hstarts)
  | fields fields =>
    simp only [Phrase.starts, beq_iff_eq] at h
    simp [h]
  | level _ _ | call _ | access _ | primary _ | arm _ | arms _ =>
    have hstarts := startsExpression_of_startsOperand h
    exact List.mem_cons_of_mem _ (kind_of_startsExpression hstarts)

/-- An operand is no run of items. -/
@[simp] theorem Level.isRun_operand (level : Level) (e : Expr) :
    (level.operand e).isRun = false := by
  cases level <;> rfl

/-- A left operand is no run of items. -/
@[simp] theorem Level.isRun_left (level : Level) (e : Expr) : (level.left e).isRun = false := by
  cases level <;> rfl

/-- The operands of all levels start alike. -/
@[simp] theorem Level.starts_operand (level : Level) (e : Expr) (token : Token) :
    (level.operand e).starts token = startsOperand token := by
  cases level <;> rfl

/-- The left operands of all levels start as other operands do. -/
@[simp] theorem Level.starts_left (level : Level) (e : Expr) (token : Token) :
    (level.left e).starts token = startsOperand token := by
  cases level <;> rfl

/-- The first of the tokens is one with which the category of the phrase starts. There is a first
token unless the phrase is a run. -/
def StartsAs (phrase : Phrase) (tokens : List Token) : Prop :=
  phrase.isRun = true ∧ tokens = [] ∨
    ∃ token more, tokens = token :: more ∧ phrase.starts token = true

private theorem StartsAs.append {phrase phrase' : Phrase} {tokens : List Token}
    (h : StartsAs phrase tokens) (hrun : phrase.isRun = false)
    (hstarts : ∀ token, phrase.starts token = true → phrase'.starts token = true)
    (more : List Token) : StartsAs phrase' (tokens ++ more) := by
  rcases h with ⟨htrue, _⟩ | ⟨token, rest, rfl, hstart⟩
  · rw [hrun] at htrue
    cases htrue
  · exact .inr ⟨token, rest ++ more, rfl, hstarts token hstart⟩

private theorem StartsAs.weaken {phrase phrase' : Phrase} {tokens : List Token}
    (h : StartsAs phrase tokens) (hrun : phrase.isRun = false)
    (hstarts : ∀ token, phrase.starts token = true → phrase'.starts token = true) :
    StartsAs phrase' tokens := by
  simpa using h.append hrun hstarts []

/-- Every spelling starts as its category does. -/
theorem Spells.starts {apart : List Token → List Token → Prop} {tokens : List Token}
    {phrase : Phrase} (h : Spells path apart tokens phrase) : StartsAs phrase tokens := by
  induction h with
  | inline _ ih =>
    refine ih.weaken rfl fun token hstart => ?_
    rw [Phrase.starts, Bool.or_eq_true]
    exact .inr hstart
  | indented hne hlines =>
    obtain ⟨token, more, rfl⟩ := List.exists_cons_of_ne_nil hne
    exact .inr ⟨token, _, rfl, by simp [Phrase.starts, hlines token (by simp)]⟩
  | function hstart => exact .inr ⟨_, _, rfl, by simp [Phrase.starts, startsExpression, hstart]⟩
  | conditional hif => exact .inr ⟨_, _, rfl, by simp [Phrase.starts, startsExpression, hif]⟩
  | select hcase => exact .inr ⟨_, _, rfl, by simp [Phrase.starts, startsExpression, hcase]⟩
  | operators _ ih => exact ih.weaken rfl fun _ => startsExpression_of_startsOperand
  | operand _ ih =>
    refine ih.weaken (Level.isRun_operand _ _) fun token hstart => ?_
    rwa [Level.starts_operand] at hstart
  | operation _ _ _ ih =>
    refine ih.append (Level.isRun_left _ _) (fun token hstart => ?_) _
    rwa [Level.starts_left] at hstart
  | callee _ ih | object _ ih => exact ih
  | call _ _ _ _ ih => exact ih.append rfl (fun _ hstart => hstart) _
  | noArguments | noElements | noFields | noArms => exact .inl ⟨rfl, rfl⟩
  | argument _ hminus _ ih =>
    obtain ⟨hrun, _⟩ | ⟨token, more, rfl, hstart⟩ := ih
    · cases hrun
    · have hkind : token.kind ≠ .minus := hminus token (by simp)
      exact .inr ⟨token, _, rfl, by simpa [Phrase.starts, hkind] using hstart⟩
  | get _ _ _ _ ih => exact ih.append rfl (fun _ hstart => hstart) _
  | literal htoken =>
    refine .inr ⟨_, _, rfl, ?_⟩
    rcases htoken with h | h | h <;> simp [Phrase.starts, startsOperand, h, Kind.startsArgument]
  | negative hminus => exact .inr ⟨_, _, rfl, by simp [Phrase.starts, startsOperand, hminus]⟩
  | reference hname =>
    refine .inr ⟨_, _, rfl, ?_⟩
    rcases hname with h | h <;> simp [Phrase.starts, startsOperand, h, Kind.startsArgument]
  | grouping hopener | list hopener | record hopener | update hopener =>
    exact .inr ⟨_, _, rfl, by simp [Phrase.starts, startsOperand, hopener, Kind.startsArgument]⟩
  | element _ _ _ _ ih =>
    refine ih.append rfl (fun _ hstart => ?_) _
    exact hstart
  | field hkey => exact .inr ⟨_, _, rfl, by simp [Phrase.starts, hkey]⟩
  | tag hsubtype =>
    exact .inr ⟨_, _, rfl, by simp [Phrase.starts, startsOperand, hsubtype, Kind.startsArgument]⟩
  | value _ _ _ _ _ ih => exact ih.append rfl (fun _ hstart => hstart) _
  | nextArm _ _ _ _ ih =>
    refine ih.append rfl (fun _ hstart => ?_) _
    exact hstart

/-- A phrase that is not a run has a first token, with which its category starts. -/
theorem Spells.exists_cons {apart : List Token → List Token → Prop} {tokens : List Token}
    {phrase : Phrase} (h : Spells path apart tokens phrase) (hrun : phrase.isRun = false) :
    ∃ token more, tokens = token :: more ∧ phrase.starts token = true := by
  rcases h.starts with ⟨htrue, _⟩ | hstarts
  · rw [hrun] at htrue
    cases htrue
  · exact hstarts

end Slick.Grammar
