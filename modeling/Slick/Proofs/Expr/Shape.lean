import Slick.Expr
import Slick.Proofs.Decimal.Negation
import Slick.Proofs.Grammar.Tokens

/-!
# The shape of expressions

The expressions that an expression is put together from, how tightly its outermost operation
binds, and the normal expressions: those that need no parentheses beside the ones they have.
Normality is a condition on each expression and its direct children.
-/

namespace Slick

/-- The expressions in an arm. -/
def Arm.parts : Arm → List Expr
  | .tag _ _ result _ => [result]
  | .value pattern _ result _ => [pattern, result]

/-- The expressions that an expression is put together from. -/
def Expr.children : Expr → List Expr
  | .conditional condition thenBranch elseBranch _ => [condition, thenBranch, elseBranch]
  | .binary left _ right _ => [left, right]
  | .grouping inner _ => [inner]
  | .literal _ _ | .reference _ _ | .unknown _ => []
  | .call callee arguments _ => callee :: arguments
  | .list elements _ => elements
  | .record fields _ => fields.map Prod.snd
  | .update target fields _ => target :: fields.map Prod.snd
  | .function _ body _ => [body]
  | .get object _ _ => [object]
  | .select scrutinee arms _ => scrutinee :: arms.flatMap Arm.parts

namespace Grammar

/-- The least rank of a left operand. Operators associate to the left, except that a comparison has
no other comparison as an operand. -/
def Level.leftRank : Level → Nat
  | comparison => sum.rank
  | level => level.rank

/-- The level of an operator. -/
def operatorLevel? (token : Token) : Option Level :=
  [Level.disjunction, .conjunction, .comparison, .sum, .product].find? (·.isOperator token)

/-- A token is an operator of one level at most. -/
theorem operatorLevel?_eq_some {level : Level} {token : Token}
    (h : level.isOperator token = true) : operatorLevel? token = some level := by
  have hwords : ∀ word word' : String, word ≠ word' → token.isWord word = true →
      token.isWord word' = false := by
    intro word word' hne hword
    simp [Lexeme.isWord, (Lexeme.isWord_iff.mp hword).2, Wanted.accepts, hne.symm]
  have hkeyword : ∀ word : String, token.kind ≠ .keyword → token.isWord word = false := by
    intro word hkind
    simp [Lexeme.isWord, hkind]
  cases level with
  | disjunction => simp_all [operatorLevel?, Level.isOperator]
  | conjunction =>
    have hor := hwords "and" "or" (by decide) h
    simp_all [operatorLevel?, Level.isOperator]
  | comparison | sum | product =>
    simp only [Level.isOperator] at h
    cases hkind : token.kind <;>
      simp_all [operatorLevel?, Level.isOperator, Kind.isComparison, Kind.isAdditive,
        Kind.isMultiplicative]

end Grammar

open Grammar

namespace Expr

/-- How tightly the outermost operation of an expression binds. Conditionals, functions and choices
bind loosest, calls bind tighter than any operator, and accesses to fields tighter still; literals,
names and bracketed forms have no outermost operation. -/
def rank : Expr → Nat
  | conditional .. | function .. | select .. | unknown _ => 0
  | binary _ operator _ _ => ((operatorLevel? operator).map Level.rank).getD 0
  | call .. => 6
  | get .. => 7
  | grouping .. | literal .. | reference .. | list .. | record .. | update .. => 8

/-- Whether an object or argument starts with the minus sign of a negative number. -/
def startsNegative : Expr → Bool
  | literal (.decimal d) _ => d.isNegative
  | get object _ _ => object.startsNegative
  | _ => false

/-- Whether the expression is the use of a capitalized name. -/
def isCapitalizedName : Expr → Bool
  | reference name _ => name.kind == .uident
  | _ => false

end Expr

/-- Values that literals have: truth values, texts, numbers without a sign, and what a minus sign
makes of them. -/
def Value.IsLiteral : Value → Prop
  | bool _ | text _ => True
  | decimal d => ∃ coefficient exponent, d = .finite false coefficient exponent ∨
      Decimal.negate .standard (.finite false coefficient exponent) = .ok d
  | _ => False

/-- An arm of one of the two forms. A capitalized name in front makes a tag arm, so it is no
pattern. -/
def Arm.Tidy : Arm → Prop
  | .tag subtype parameters _ _ => subtype.kind = .uident ∧ Names parameters
  | .value pattern parameters _ _ =>
    parameters = [] ∧ 8 ≤ pattern.rank ∧ pattern.isCapitalizedName = false

namespace Expr

/-- The names, values and operators in the expression are such, and each child binds tightly enough
for its place. -/
def Tidy : Expr → Prop
  | conditional .. | grouping .. | list .. => True
  | binary left operator right _ => ∃ level : Level, level.isOperator operator = true ∧
      level.leftRank ≤ left.rank ∧ level.rank < right.rank
  | literal value _ => value.IsLiteral
  | reference name _ => name.kind = .ident ∨ name.kind = .uident
  | call callee arguments _ => 7 ≤ callee.rank ∧ arguments ≠ [] ∧
      ∀ argument ∈ arguments, 7 ≤ argument.rank ∧ argument.startsNegative = false
  | record fields _ | update _ fields _ => (fields.map Prod.fst).Nodup
  | function parameters _ _ => Names parameters
  | get object name _ => 7 ≤ object.rank ∧ name.kind = .ident
  | select _ arms _ => arms ≠ [] ∧ ∀ arm ∈ arms, arm.Tidy
  | unknown _ => False

/-- The expression and all expressions in it are tidy. -/
inductive Normal : Expr → Prop where
  | intro {e : Expr} : e.Tidy → (∀ child ∈ e.children, Normal child) → Normal e

/-- A normal expression is tidy. -/
theorem Normal.tidy {e : Expr} (h : e.Normal) : e.Tidy := by
  cases h with
  | intro htidy _ => exact htidy

/-- The parts of a normal expression are normal. -/
theorem Normal.child {e child : Expr} (h : e.Normal) (hchild : child ∈ e.children) :
    child.Normal := by
  cases h with
  | intro _ hchildren => exact hchildren child hchild

end Expr

end Slick
