import Mathlib.Tactic.Common
import Slick.Token

/-!
# Token classes of the grammar

Runs of tokens that the grammar repeats freely, the levels of binary operators, and two classes
of tokens that matter for a reader that looks one token ahead: those with which an expression can
start, and those by which an expression that seems complete can still go on.
-/

namespace Slick

/-- A reserved word has its spelling as its value. -/
theorem Lexeme.isWord_iff {lexeme : Lexeme} {word : String} :
    lexeme.isWord word = true ↔ lexeme.kind = .keyword ∧ lexeme.value = .text word := by
  unfold isWord
  cases lexeme.value with
  | text s =>
    simp only [Wanted.accepts, Bool.and_eq_true, beq_iff_eq, Value.text.injEq]
    exact and_congr_right fun _ => eq_comm
  | _ => simp [Wanted.accepts]

/-- A truth value is a reserved word with a truth value as its value. -/
theorem Lexeme.isTruth_iff {lexeme : Lexeme} :
    lexeme.isTruth = true ↔ lexeme.kind = .keyword ∧ ∃ b, lexeme.value = .bool b := by
  unfold isTruth
  cases lexeme.value <;> simp

namespace Grammar

/-- A run of line ends. -/
def Newlines (tokens : List Token) : Prop := ∀ token ∈ tokens, token.kind = .newline

/-- A run of line ends and commas. -/
def Separators (tokens : List Token) : Prop :=
  ∀ token ∈ tokens, token.kind = .newline ∨ token.kind = .comma

/-- A run of names that start with a small letter. -/
def Names (tokens : List Token) : Prop := ∀ token ∈ tokens, token.kind = .ident

/-- The levels of binary operators, from the loosest to the tightest. -/
inductive Level where
  | disjunction
  | conjunction
  | comparison
  | sum
  | product
  deriving DecidableEq, Repr

/-- How tightly the operators of a level bind. -/
def Level.rank : Level → Nat
  | disjunction => 1
  | conjunction => 2
  | comparison => 3
  | sum => 4
  | product => 5

/-- The operators of a level. -/
def Level.isOperator : Level → Token → Bool
  | disjunction, token => token.isWord "or"
  | conjunction, token => token.isWord "and"
  | comparison, token => token.kind.isComparison
  | sum, token => token.kind.isAdditive
  | product, token => token.kind.isMultiplicative

/-- Whether a token is an operator of a level does not depend on its place. -/
theorem Level.isOperator_of_toLexeme {level : Level} {operator token : Token}
    (h : level.isOperator operator = true) (htoken : token.toLexeme = operator.toLexeme) :
    level.isOperator token = true := by
  cases level <;> simpa only [Level.isOperator, htoken] using h

/-- Tokens with which an operand of a binary operator can start. -/
def startsOperand (token : Token) : Bool :=
  token.kind == .minus || token.kind.startsArgument || token.isTruth

/-- Tokens with which an expression can start. -/
def startsExpression (token : Token) : Bool :=
  startsOperand token || token.kind == .fn || token.isWord "if" || token.isWord "case"

/-- Tokens by which a complete call can go on: another argument, or the access to a field. -/
def extendsCall (token : Token) : Bool :=
  token.kind == .dot || token.kind.startsArgument || token.isTruth

/-- Tokens by which a complete operand of the level can go on. -/
def Level.extendsOperand : Level → Token → Bool
  | product, token => extendsCall token
  | sum, token => extendsCall token || product.isOperator token
  | comparison, token =>
    extendsCall token || product.isOperator token || sum.isOperator token
  | conjunction, token =>
    extendsCall token || product.isOperator token || sum.isOperator token ||
      comparison.isOperator token
  | disjunction, token =>
    extendsCall token || product.isOperator token || sum.isOperator token ||
      comparison.isOperator token || conjunction.isOperator token

/-- Tokens by which a complete phrase of the level can go on. -/
def Level.extends (level : Level) (token : Token) : Bool :=
  level.extendsOperand token || level.isOperator token

/-- Tokens by which a complete expression can go on. -/
def extendsExpression (token : Token) : Bool := Level.disjunction.extends token

/-- Whether the last of the tokens closes an indented block. -/
def EndsBlock (tokens : List Token) : Prop := ∃ token ∈ tokens.getLast?, token.kind = .dedent

/-- The rest of a list may follow an item without becoming part of it: the item ends with a block,
or the rest starts with a token that extends nothing. -/
def Apart (item rest : List Token) : Prop :=
  EndsBlock item ∨ ∀ token ∈ rest.head?, extendsExpression token = false

/-- A list ends with a block if a last part of it does. -/
theorem EndsBlock.append_left {tokens : List Token} (h : EndsBlock tokens) (before : List Token) :
    EndsBlock (before ++ tokens) := by
  obtain ⟨token, htoken, hkind⟩ := h
  exact ⟨token, by simp [Option.mem_def.mp htoken], hkind⟩

/-- Tokens in front of the end of a block do not change that it ends there. -/
theorem EndsBlock.cons {tokens : List Token} (h : EndsBlock tokens) (token : Token) :
    EndsBlock (token :: tokens) :=
  h.append_left [token]

/-- A list ends as its last part does. -/
theorem EndsBlock.of_append {before tokens : List Token} (h : EndsBlock (before ++ tokens))
    (hne : tokens ≠ []) : EndsBlock tokens := by
  obtain ⟨token, htoken, hkind⟩ := h
  refine ⟨token, ?_, hkind⟩
  rw [List.getLast?_append, List.getLast?_eq_some_getLast hne] at htoken
  rwa [List.getLast?_eq_some_getLast hne]

/-- Where a block ends, it does so without its first token. -/
theorem EndsBlock.of_cons {token : Token} {tokens : List Token} (h : EndsBlock (token :: tokens))
    (hne : tokens ≠ []) : EndsBlock tokens := by
  rw [← List.singleton_append] at h
  exact h.of_append hne

/-- A token that ends a block alone is the mark for it. -/
theorem endsBlock_singleton {token : Token} : EndsBlock [token] ↔ token.kind = .dedent := by
  simp [EndsBlock]

/-- An operator does not belong to the operand in front of it. -/
theorem Level.extendsOperand_of_isOperator {level : Level} {token : Token}
    (h : level.isOperator token = true) : level.extendsOperand token = false := by
  cases level with
  | disjunction | conjunction =>
    obtain ⟨hkind, hvalue⟩ := Lexeme.isWord_iff.mp h
    simp [extendsOperand, isOperator, extendsCall, Lexeme.isWord, Lexeme.isTruth, hkind, hvalue,
      Kind.startsArgument, Kind.isMultiplicative, Kind.isAdditive, Kind.isComparison,
      Wanted.accepts]
  | comparison | sum | product =>
    simp only [isOperator] at h
    cases hkind : token.kind <;> simp_all [extendsOperand, isOperator, extendsCall, Lexeme.isTruth,
      Kind.startsArgument, Kind.isMultiplicative, Kind.isAdditive, Kind.isComparison]

/-- The kinds by which expressions go on. -/
theorem extendsExpression_eq_false {token : Token} (h : token.kind ∈
    [.newline, .comma, .rparen, .rbracket, .rbrace, .pipe, .arrow, .colon, .indent, .dedent,
      .eof]) : extendsExpression token = false := by
  simp only [List.mem_cons, List.not_mem_nil, or_false] at h
  rcases h with h | h | h | h | h | h | h | h | h | h | h <;>
    simp [extendsExpression, Level.extends, Level.extendsOperand, Level.isOperator, extendsCall,
      Lexeme.isWord, Lexeme.isTruth, h, Kind.startsArgument, Kind.isMultiplicative,
      Kind.isAdditive, Kind.isComparison]

/-- Reserved words other than `and` and `or` end an expression. -/
theorem extendsExpression_of_isWord {token : Token} {word : String}
    (h : token.isWord word = true) (hand : word ≠ "and") (hor : word ≠ "or") :
    extendsExpression token = false := by
  obtain ⟨hkind, hvalue⟩ := Lexeme.isWord_iff.mp h
  simp [extendsExpression, Level.extends, Level.extendsOperand, Level.isOperator, extendsCall,
    Lexeme.isWord, Lexeme.isTruth, hkind, hvalue, Kind.startsArgument, Kind.isMultiplicative,
    Kind.isAdditive, Kind.isComparison, Wanted.accepts, hand.symm, hor.symm]

/-- The kinds with which expressions start. -/
theorem kind_of_startsExpression {token : Token} (h : startsExpression token = true) :
    token.kind ∈ [.minus, .number, .text, .ident, .uident, .lparen, .lbracket, .lbrace, .keyword,
      .fn] := by
  simp only [startsExpression, startsOperand, Bool.or_eq_true, beq_iff_eq, Lexeme.isWord_iff,
    Lexeme.isTruth_iff] at h
  cases hkind : token.kind <;> simp_all [Kind.startsArgument]

/-- Operands start neither with the function sign nor with `if` or `case`. -/
theorem not_form_of_startsOperand {token : Token} (h : startsOperand token = true) :
    token.kind ≠ .fn ∧ token.isWord "if" = false ∧ token.isWord "case" = false := by
  simp only [startsOperand, Bool.or_eq_true, beq_iff_eq, Lexeme.isTruth_iff] at h
  rcases h with (h | h) | ⟨h, b, hvalue⟩
  · simp [Lexeme.isWord, h]
  · cases hkind : token.kind <;> simp_all [Kind.startsArgument, Lexeme.isWord]
  · simp [Lexeme.isWord, h, hvalue, Wanted.accepts]

/-- The operand at the start of an expression is an expression's start. -/
theorem startsExpression_of_startsOperand {token : Token} (h : startsOperand token = true) :
    startsExpression token = true := by
  simp [startsExpression, h]

end Grammar

end Slick
