import Slick.Proofs.Grammar.Programs

/-!
# What a program is made of

The names, operators, keys and values in a program that is spelled come from the lexemes of its
tokens, and each stands where its kind belongs. `MadeOf known` says so for lexemes that satisfy
`known`. A program made of lexemes holds no unknown forms. Main statement:
`SpellsProgram.madeOf`.
-/

namespace Slick

/-- A known name that starts with a small letter. -/
def Token.IsName (known : Lexeme → Prop) (token : Token) : Prop :=
  known token.toLexeme ∧ token.kind = .ident

/-- The text of a known name, as record keys are kept. -/
def IsKey (known : Lexeme → Prop) (key : String) : Prop :=
  ∃ lexeme : Lexeme, known lexeme ∧ lexeme.kind = .ident ∧ lexeme.text = key

/-- The value of a known literal, or the negative of a known numeral. -/
def Value.MadeOf (known : Lexeme → Prop) (value : Value) : Prop :=
  ∃ lexeme : Lexeme, known lexeme ∧
    ((lexeme.kind = .number ∨ lexeme.kind = .text ∨ lexeme.isTruth = true) ∧
        value = lexeme.value ∨
      lexeme.kind = .number ∧ lexeme.value.negate = .ok value)

mutual

/-- The expression is made of known lexemes. -/
def Expr.MadeOf (known : Lexeme → Prop) : Expr → Prop
  | .conditional condition thenBranch elseBranch _ =>
    condition.MadeOf known ∧ thenBranch.MadeOf known ∧ elseBranch.MadeOf known
  | .binary left operator right _ =>
    left.MadeOf known ∧ right.MadeOf known ∧ known operator.toLexeme ∧
      ∃ level : Grammar.Level, level.isOperator operator = true
  | .grouping inner _ => inner.MadeOf known
  | .literal value _ => value.MadeOf known
  | .reference name _ => known name.toLexeme ∧ (name.kind = .ident ∨ name.kind = .uident)
  | .call callee arguments _ => callee.MadeOf known ∧ Expr.AllMadeOf known arguments
  | .list elements _ => Expr.AllMadeOf known elements
  | .record fields _ => Expr.FieldsMadeOf known fields
  | .update target fields _ => target.MadeOf known ∧ Expr.FieldsMadeOf known fields
  | .function parameters body _ =>
    (∀ parameter ∈ parameters, parameter.IsName known) ∧ body.MadeOf known
  | .get object name _ => object.MadeOf known ∧ name.IsName known
  | .select scrutinee arms _ => scrutinee.MadeOf known ∧ Arm.AllMadeOf known arms
  | .unknown _ => False

/-- The expressions are made of known lexemes. -/
def Expr.AllMadeOf (known : Lexeme → Prop) : List Expr → Prop
  | [] => True
  | e :: es => e.MadeOf known ∧ Expr.AllMadeOf known es

/-- The fields and their keys are made of known lexemes. -/
def Expr.FieldsMadeOf (known : Lexeme → Prop) : List (String × Expr) → Prop
  | [] => True
  | (key, value) :: fields =>
    IsKey known key ∧ value.MadeOf known ∧ Expr.FieldsMadeOf known fields

/-- The arm is made of known lexemes. Only a tag arm names parameters. -/
def Arm.MadeOf (known : Lexeme → Prop) : Arm → Prop
  | .tag subtype parameters result _ =>
    (known subtype.toLexeme ∧ subtype.kind = .uident) ∧
      (∀ parameter ∈ parameters, parameter.IsName known) ∧ result.MadeOf known
  | .value pattern parameters result _ =>
    pattern.MadeOf known ∧ parameters = [] ∧ result.MadeOf known

/-- The arms are made of known lexemes. -/
def Arm.AllMadeOf (known : Lexeme → Prop) : List Arm → Prop
  | [] => True
  | arm :: arms => arm.MadeOf known ∧ Arm.AllMadeOf known arms

end

/-- A type name as it is written. -/
def IsTypeText (known : Lexeme → Prop) (name : String) : Prop :=
  ∃ lexeme : Lexeme, known lexeme ∧ (lexeme.kind = .uident ∨ lexeme.kind = .ident) ∧
    lexeme.text = name

mutual

/-- The names in the type are known. -/
def TypeExpr.MadeOf (known : Lexeme → Prop) : TypeExpr → Prop
  | .mk name arguments => IsTypeText known name ∧ TypeExpr.AllMadeOf known arguments

/-- The names in the types are known. -/
def TypeExpr.AllMadeOf (known : Lexeme → Prop) : List TypeExpr → Prop
  | [] => True
  | type :: types => type.MadeOf known ∧ TypeExpr.AllMadeOf known types

end

/-- The name of the subtype is known, and so are the names in its payload. -/
def SubtypeMadeOf (known : Lexeme → Prop) (subtype : String × Option TypeExpr) : Prop :=
  (∃ lexeme : Lexeme, known lexeme ∧ lexeme.kind = .uident ∧ lexeme.text = subtype.1) ∧
    ∀ type ∈ subtype.2, type.MadeOf known

/-- The declaration is made of known lexemes. -/
def Stmt.MadeOf (known : Lexeme → Prop) : Stmt → Prop
  | .binding name initializer _ => name.IsName known ∧ initializer.MadeOf known
  | .customType name subtypes _ =>
    (known name.toLexeme ∧ name.kind = .uident) ∧ ∀ subtype ∈ subtypes, SubtypeMadeOf known subtype
  | .unknown _ => False

namespace Grammar

variable {apart : List Token → List Token → Prop} {known : Lexeme → Prop}

/-- The trees of the phrase are made of known lexemes. -/
def Phrase.MadeOf (known : Lexeme → Prop) : Phrase → Prop
  | .block e | .expression e | .level _ e | .call e | .access e | .primary e => e.MadeOf known
  | .arguments es | .elements es => Expr.AllMadeOf known es
  | .fields entries => Expr.FieldsMadeOf known entries
  | .arm a => a.MadeOf known
  | .arms as => Arm.AllMadeOf known as

private theorem Level.madeOf_operand (level : Level) (e : Expr) :
    (level.operand e).MadeOf known = e.MadeOf known := by
  cases level <;> rfl

private theorem Level.madeOf_left (level : Level) (e : Expr) :
    (level.left e).MadeOf known = e.MadeOf known := by
  cases level <;> rfl

/-- Names among known tokens are known names. -/
theorem Names.isName {names : List Token} (h : Names names)
    (hknown : ∀ token ∈ names, known token.toLexeme) : ∀ token ∈ names, token.IsName known :=
  fun token htoken => ⟨hknown token htoken, h token htoken⟩

/-- A phrase is made of the lexemes of the tokens that spell it. -/
theorem Spells.madeOf {tokens : List Token} {phrase : Phrase} (h : Spells path apart tokens phrase)
    (hknown : ∀ token ∈ tokens, known token.toLexeme) : phrase.MadeOf known := by
  induction h with
  | inline _ ih | operators _ ih | callee _ ih | object _ ih => exact ih hknown
  | indented _ _ _ _ _ _ ih => exact ih fun token htoken => hknown token (by simp [htoken])
  | function _ hnames _ _ ih =>
    refine ⟨hnames.isName fun token htoken => hknown token (by simp [htoken]), ?_⟩
    exact ih fun token htoken => hknown token (by simp [htoken])
  | conditional _ _ _ _ _ _ _ ihc iht ihe =>
    refine ⟨ihc ?_, iht ?_, ihe ?_⟩ <;>
      · intro token htoken
        exact hknown token (by simp [htoken])
  | select _ _ _ _ _ _ _ _ _ ihs iharms =>
    refine ⟨ihs ?_, iharms ?_⟩ <;>
      · intro token htoken
        exact hknown token (by simp [htoken])
  | operand _ ih =>
    rw [Level.madeOf_operand] at ih
    exact ih hknown
  | @operation level left right operator a b _ hoperator _ iha ihb =>
    rw [Level.madeOf_left] at iha
    rw [Level.madeOf_operand] at ihb
    refine ⟨iha fun token htoken => ?_, ihb fun token htoken => ?_, ?_, level, hoperator⟩
    · exact hknown token (by simp [htoken])
    · exact hknown token (by simp [htoken])
    · exact hknown operator (by simp)
  | call _ _ _ _ ihe iharguments =>
    refine ⟨ihe ?_, iharguments ?_⟩ <;>
      · intro token htoken
        exact hknown token (by simp [htoken])
  | noArguments | noElements | noFields | noArms => trivial
  | argument _ _ _ ihe ihes =>
    refine ⟨ihe ?_, ihes ?_⟩ <;>
      · intro token htoken
        exact hknown token (by simp [htoken])
  | @get _ _ name _ _ _ _ _ hname ih =>
    refine ⟨ih fun token htoken => hknown token (by simp [htoken]), hknown name ?_, hname⟩
    simp
  | @literal token htoken => exact ⟨token.toLexeme, hknown token (by simp), .inl ⟨htoken, rfl⟩⟩
  | @negative _ number _ _ hnumber hvalue =>
    exact ⟨number.toLexeme, hknown number (by simp), .inr ⟨hnumber, hvalue⟩⟩
  | @reference name hname => exact ⟨hknown name (by simp), hname⟩
  | grouping _ _ _ _ _ ih | list _ _ _ _ ih | record _ _ _ _ _ ih =>
    exact ih fun token htoken => hknown token (by simp [htoken])
  | update _ _ _ _ _ _ _ _ ihe ihfields =>
    refine ⟨ihe ?_, ihfields ?_⟩ <;>
      · intro token htoken
        exact hknown token (by simp [htoken])
  | element _ _ _ _ ihe ihes =>
    refine ⟨ihe ?_, ihes ?_⟩ <;>
      · intro token htoken
        exact hknown token (by simp [htoken])
  | @field key _ _ _ _ _ _ hkey _ _ _ _ _ ihe ihfields =>
    refine ⟨⟨key.toLexeme, hknown key (by simp), hkey, rfl⟩, ihe ?_, ihfields ?_⟩ <;>
      · intro token htoken
        exact hknown token (by simp [htoken])
  | @tag subtype _ _ _ _ hsubtype hnames _ _ ih =>
    refine ⟨⟨hknown subtype (by simp), hsubtype⟩, hnames.isName fun token htoken => ?_,
      ih fun token htoken => ?_⟩ <;> exact hknown token (by simp [htoken])
  | value _ _ _ _ _ ihpattern ihresult =>
    refine ⟨ihpattern ?_, rfl, ihresult ?_⟩ <;>
      · intro token htoken
        exact hknown token (by simp [htoken])
  | nextArm _ _ _ _ iharm iharms =>
    refine ⟨iharm ?_, iharms ?_⟩ <;>
      · intro token htoken
        exact hknown token (by simp [htoken])

/-- The types of a phrase are made of known names. -/
def TypePhrase.MadeOf (known : Lexeme → Prop) : TypePhrase → Prop
  | .type t => t.MadeOf known
  | .arguments types => TypeExpr.AllMadeOf known types

/-- A type is made of the lexemes that spell it. -/
theorem SpellsType.madeOf {tokens : List Token} {phrase : TypePhrase}
    (h : SpellsType tokens phrase) (hknown : ∀ token ∈ tokens, known token.toLexeme) :
    phrase.MadeOf known := by
  induction h with
  | @named name rest types hname _ ih =>
    refine ⟨⟨name.toLexeme, hknown name (by simp), hname, rfl⟩, ih fun token htoken => ?_⟩
    exact hknown token (by simp [htoken])
  | parenthesised _ _ _ ih => exact ih fun token htoken => hknown token (by simp [htoken])
  | noArguments => trivial
  | @nameArgument name rest types hname _ ih =>
    refine ⟨⟨⟨name.toLexeme, hknown name (by simp), hname, rfl⟩, trivial⟩,
      ih fun token htoken => ?_⟩
    exact hknown token (by simp [htoken])
  | typeArgument _ _ _ _ ihinner ihrest =>
    refine ⟨ihinner ?_, ihrest ?_⟩ <;>
      · intro token htoken
        exact hknown token (by simp [htoken])

/-- Subtypes are made of the lexemes that spell them. -/
theorem SpellsSubtypes.madeOf {tokens : List Token} {subtypes : List (String × Option TypeExpr)}
    (h : SpellsSubtypes tokens subtypes) (hknown : ∀ token ∈ tokens, known token.toLexeme) :
    ∀ subtype ∈ subtypes, SubtypeMadeOf known subtype := by
  induction h with
  | nil => simp
  | @cons name payload lines rest type subtypes hname hpayload _ _ _ ih =>
    rw [List.forall_mem_cons]
    refine ⟨⟨⟨name.toLexeme, hknown name (by simp), hname, rfl⟩, fun t ht => ?_⟩,
      ih fun token htoken => hknown token (by simp [htoken])⟩
    cases hpayload with
    | absent => cases ht
    | present htype =>
      cases ht
      exact htype.madeOf fun token htoken => hknown token (by simp [htoken])

/-- Declarations are made of the lexemes that spell them. -/
theorem SpellsStmts.madeOf {tokens : List Token} {stmts : List Stmt}
    (h : SpellsStmts path apart tokens stmts) (hknown : ∀ token ∈ tokens, known token.toLexeme) :
    ∀ stmt ∈ stmts, stmt.MadeOf known := by
  induction h with
  | nil => simp
  | cons hfirst _ _ _ ih =>
    rw [List.forall_mem_cons]
    refine ⟨?_, ih fun token htoken => hknown token (by simp [htoken])⟩
    cases hfirst with
    | @binding name _ _ _ hname _ hbody =>
      refine ⟨⟨hknown name (by simp), hname⟩, hbody.madeOf fun token htoken => ?_⟩
      exact hknown token (by simp [htoken])
    | @customType _ name _ _ _ _ _ _ _ hname _ _ _ _ hbody =>
      refine ⟨⟨hknown name (by simp), hname⟩, hbody.madeOf fun token htoken => ?_⟩
      exact hknown token (by simp [htoken])

/-- A program is made of the lexemes of the tokens that spell it. -/
theorem SpellsProgram.madeOf {tokens : List Token} {stmts : List Stmt}
    (h : SpellsProgram path apart tokens stmts) (hknown : ∀ token ∈ tokens, known token.toLexeme) :
    ∀ stmt ∈ stmts, stmt.MadeOf known := by
  obtain ⟨lines, rest, rfl, -, hrest⟩ := h
  exact hrest.madeOf fun token htoken => hknown token (by simp [htoken])

end Grammar

end Slick
