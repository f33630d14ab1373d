import Slick.Expr
import Slick.Parser

/-!
# Reading expressions

One definition per production of the grammar. Every production takes the reading of
expressions that may stand inside it as a parameter, and `Expr.parser` at the end closes
the circle. Operators of one level associate to the left, tighter levels are read first,
and a comparison takes at most one operator. No production looks further than two tokens
ahead, and none gives up what it has read.
-/

namespace Slick.Expr

open Slick.Parser

/-- An expression on the same line, or alone in an indented block below. -/
def block (expr : Parser Expr) : Parser Expr := do
  let token ← peek
  if token.kind ≠ .newline then expr
  else
    skipNewlines
    let _ ← expect .indent
    let inner ← expr
    skipNewlines
    let _ ← expect .dedent
    return inner

/-- Names up to the first other token. -/
def parameters : Parser (List Token) := takeWhile (·.kind == .ident)

/-- A function: its parameters, an arrow and its body. -/
def functionForm (expr : Parser Expr) : Parser Expr := do
  let start ← advance
  let names ← parameters
  let _ ← expect .arrow
  let body ← block expr
  return function names body (← locate start)

/-- A conditional. Either branch may be a block, and `else` may start a line. -/
def conditionalForm (expr : Parser Expr) : Parser Expr := do
  let start ← advance
  let condition ← expr
  let _ ← expectWord "then"
  let thenBranch ← block expr
  skipNewlines
  let _ ← expectWord "else"
  let elseBranch ← block expr
  return conditional condition thenBranch elseBranch (← locate start)

/-- The negative of a value, or the failure to have one. -/
def negated (value : Value) : Parser Value :=
  match value.negate with
  | .ok negative => return negative
  | .error fault => fail (.negation fault)

/-- The elements of a list up to its closing bracket, with separators of any number between
them. -/
def listForm (expr : Parser Expr) : Parser Expr := do
  let start ← advance
  skipSeparators
  let elements ← many (fun token _ => token.kind ≠ .rbracket) do
    let token ← peek
    if token.kind = .eof then refuse .unclosedList start
    else
      let element ← expr
      skipSeparators
      return element
  let _ ← advance
  return list elements (← locate start)

/-- One more field of a record that starts at `start`. -/
def field (expr : Parser Expr) (start : Token) (fields : Dictionary Expr) :
    Parser (Dictionary Expr) := do
  let token ← peek
  if token.kind = .eof then refuse .unclosedRecord start
  else
    let key ← expect .ident
    if fields.has key.text then refuse (.duplicateField key.text) key
    else
      let _ ← expect .colon
      let value ← expr
      skipSeparators
      return fields.put key.text value

/-- The fields of a record up to its closing brace. -/
def fields (expr : Parser Expr) (start : Token) : Parser (Dictionary Expr) := do
  skipSeparators
  let entries ← fold (fun token _ => token.kind ≠ .rbrace) (field expr start) []
  let _ ← advance
  return entries

/-- A record, or the update of one. It is an update unless it is empty or starts with a key. -/
def recordForm (expr : Parser Expr) : Parser Expr := do
  let start ← advance
  skipNewlines
  let token ← peek
  let second ← peekSecond
  if token.kind = .rbrace ∨ (token.kind = .ident ∧ second.kind = .colon) then
    let entries ← fields expr start
    return record entries (← locate start)
  else
    let target ← expr
    let _ ← expect .pipe
    let entries ← fields expr start
    return update target entries (← locate start)

/-- An expression in parentheses. -/
def groupingForm (expr : Parser Expr) : Parser Expr := do
  let start ← advance
  skipNewlines
  let inner ← expr
  skipNewlines
  let _ ← expect .rparen
  return grouping inner (← locate start)

/-- An expression that no operator divides: a literal, a name or a bracketed form. A minus sign
directly before a numeral makes a negative literal. -/
def primary (expr : Parser Expr) : Parser Expr := do
  let token ← peek
  let second ← peekSecond
  if token.kind = .number ∨ token.kind = .text ∨ token.isTruth then
    let _ ← advance
    return literal token.value (← locate token)
  else if token.kind = .minus ∧ second.kind = .number then
    let _ ← advance
    let numeral ← advance
    let value ← negated numeral.value
    return literal value (← locate token)
  else if token.kind = .ident ∨ token.kind = .uident then
    let _ ← advance
    return reference token (← locate token)
  else if token.kind = .lparen then groupingForm expr
  else if token.kind = .lbracket then listForm expr
  else if token.kind = .lbrace then recordForm expr
  else refuse (.expectedExpression token.toLexeme) token

/-- A primary expression with accesses to its fields. -/
def access (expr : Parser Expr) : Parser Expr := do
  let start ← peek
  let object ← primary expr
  fold (fun token second => token.kind == .dot && second.kind == .ident) (fun object => do
    let _ ← advance
    let name ← advance
    return get object name (← locate start)) object

/-- A callee with its arguments side by side, or the callee alone. -/
def callForm (expr : Parser Expr) : Parser Expr := do
  let start ← peek
  let callee ← access expr
  let arguments ← many (fun token _ => token.kind.startsArgument || token.isTruth) (access expr)
  if arguments.isEmpty then return callee
  else return call callee arguments (← locate start)

/-- The rest of a binary expression: its operator and its right operand. -/
def operation (operand : Parser Expr) (left : Expr) : Parser Expr := do
  let operator ← advance
  let right ← operand
  return binary left operator right (← locate operator)

/-- Operands with operators between them, associated to the left. -/
def chain (isOperator : Token → Bool) (operand : Parser Expr) : Parser Expr := do
  let first ← operand
  fold (fun token _ => isOperator token) (operation operand) first

/-- Products and quotients. -/
def term (expr : Parser Expr) : Parser Expr :=
  chain (·.kind.isMultiplicative) (callForm expr)

/-- Sums, differences and joined texts. -/
def additive (expr : Parser Expr) : Parser Expr :=
  chain (·.kind.isAdditive) (term expr)

/-- A single comparison, or no comparison at all. -/
def comparison (expr : Parser Expr) : Parser Expr := do
  let left ← additive expr
  let token ← peek
  if token.kind.isComparison then operation (additive expr) left
  else return left

/-- Conjunctions. -/
def conjunction (expr : Parser Expr) : Parser Expr :=
  chain (·.isWord "and") (comparison expr)

/-- Disjunctions. -/
def disjunction (expr : Parser Expr) : Parser Expr :=
  chain (·.isWord "or") (conjunction expr)

/-- One arm of a choice. A capitalized name always makes it a tag arm. -/
def arm (expr : Parser Expr) : Parser Arm := do
  let start ← peek
  if start.kind = .uident then
    let subtype ← advance
    let names ← parameters
    let _ ← expect .arrow
    let result ← block expr
    return .tag subtype names result (← locate start)
  else
    let pattern ← primary expr
    let _ ← expect .arrow
    let result ← block expr
    return .value pattern [] result (← locate start)

/-- A choice: the scrutinee, and its arms in an indented block below. -/
def selectForm (expr : Parser Expr) : Parser Expr := do
  let start ← advance
  let scrutinee ← expr
  let _ ← expectWord "of"
  let _ ← expect .newline
  skipNewlines
  let _ ← expect .indent
  let arms ← many (fun token _ => token.kind ≠ .dedent && token.kind ≠ .eof) do
    let first ← arm expr
    skipNewlines
    return first
  let _ ← expect .dedent
  if arms.isEmpty then refuse .noArms start
  else return select scrutinee arms (← locate start)

/-- An expression, with `expr` for those inside it. -/
def form (expr : Parser Expr) : Parser Expr := do
  let token ← peek
  if token.kind = .fn then functionForm expr
  else if token.isWord "if" then conditionalForm expr
  else if token.isWord "case" then selectForm expr
  else disjunction expr

/-- Reads an expression. -/
def parser : Parser Expr := fix (fun again _ => form (again ())) ()

end Slick.Expr
