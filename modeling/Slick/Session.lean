import Slick.Program.Parser

/-!
# Reading step by step

A session holds a token list and a place in it. Each step looks at tokens or reads a piece
of grammar from the present place; when it fails, the session stays where the failed
reading stopped and later steps go on from there.
-/

namespace Slick

/-- A token list with the part of it that is not yet consumed. -/
structure Session where
  tokens : List Token
  rest : List Token
  path : Option String := none

namespace Session

/-- A piece of grammar that a step can read. -/
inductive Production where
  | program | statement | binding | customType | type | block | expression | function
  | conditional | select | arm | disjunction | conjunction | comparison | additive | term | call
  | access | primary | list | record
  deriving DecidableEq, Repr

/-- What a step can do at the present place. -/
inductive Action where
  | advance
  /-- Tests the next token for a kind and a value. -/
  | test (kind : Kind) (wanted : Wanted)
  /-- Tests the next token for a truth value. -/
  | testTruth
  | expect (kind : Kind) (wanted : Wanted)
  /-- Makes an error with the given message at the next token. -/
  | report (message : String)
  | skipNewlines
  | skipSeparators
  | read (production : Production)
  deriving Repr

/-- One step of a session. -/
inductive Step where
  /-- Shows the token at an offset from the next one. It may lie before it. -/
  | peek (offset : Int)
  | act (action : Action)
  deriving Repr

/-- What a step yields. -/
inductive Result where
  | nothing
  | bool (b : Bool)
  | token (token : Token)
  | flaw (flaw : Flaw)
  | expr (expr : Expr)
  | arm (arm : Arm)
  | stmt (stmt : Stmt)
  | type (type : TypeExpr)
  | program (program : Program)
  deriving Repr

/-- Why a step fails. -/
inductive StepFailure where
  /-- There is no such token. -/
  | outOfRange
  | reading (failure : Failure)
  deriving Repr

/-- A session at the start of a token list. -/
def start (tokens : List Token) (path : Option String) : Session := ⟨tokens, tokens, path⟩

/-- The number of tokens consumed so far. -/
def position (session : Session) : Nat := session.tokens.length - session.rest.length

/-- The token at an index. At and behind the end the last token stands, and an index below zero
counts from the end. -/
def tokenAt? (tokens : List Token) (index : Int) : Option Token :=
  if tokens.length ≤ index then tokens.getLast?
  else if 0 ≤ index then tokens[index.toNat]?
  else if 0 ≤ tokens.length + index then tokens[(tokens.length + index).toNat]?
  else none

open Slick.Parser in
/-- The reading of a piece of grammar. -/
def Production.parser : Production → Parser Result
  | program => do return .program (← Program.form)
  | statement => do return .stmt (← Stmt.parser)
  | binding => do return .stmt (← Stmt.bindingForm)
  | customType => do return .stmt (← Stmt.customTypeForm)
  | type => do return .type (← TypeExpr.parser)
  | block => do return .expr (← Expr.block Expr.parser)
  | expression => do return .expr (← Expr.parser)
  | function => do return .expr (← Expr.functionForm Expr.parser)
  | conditional => do return .expr (← Expr.conditionalForm Expr.parser)
  | select => do return .expr (← Expr.selectForm Expr.parser)
  | arm => do return .arm (← Expr.arm Expr.parser)
  | disjunction => do return .expr (← Expr.disjunction Expr.parser)
  | conjunction => do return .expr (← Expr.conjunction Expr.parser)
  | comparison => do return .expr (← Expr.comparison Expr.parser)
  | additive => do return .expr (← Expr.additive Expr.parser)
  | term => do return .expr (← Expr.term Expr.parser)
  | call => do return .expr (← Expr.callForm Expr.parser)
  | access => do return .expr (← Expr.access Expr.parser)
  | primary => do return .expr (← Expr.primary Expr.parser)
  | list => do return .expr (← Expr.listForm Expr.parser)
  | record => do return .expr (← Expr.recordForm Expr.parser)

/-- The reading that an action stands for. -/
def Action.parser : Action → Parser Result
  | advance => do return .token (← Parser.advance)
  | test kind wanted => do
    let token ← Parser.peek
    return .bool (token.kind == kind && wanted.accepts token.value)
  | testTruth => do
    let token ← Parser.peek
    return .bool token.isTruth
  | expect kind wanted => do return .token (← Parser.expect kind wanted)
  | report message => do
    let token ← Parser.peek
    return .flaw ⟨← Parser.locate token, .other message⟩
  | skipNewlines => do
    Parser.skipNewlines
    return .nothing
  | skipSeparators => do
    Parser.skipSeparators
    return .nothing
  | read production => production.parser

/-- Takes one step. With no tokens there is nothing to look at. -/
def step (session : Session) (s : Step) : Except StepFailure Result × Session :=
  match session.tokens.getLast?, s with
  | none, _ => (.error .outOfRange, session)
  | some _, .peek offset =>
    match tokenAt? session.tokens (session.position + offset) with
    | none => (.error .outOfRange, session)
    | some token => (.ok (.token token), session)
  | some last, .act action =>
    match action.parser ⟨last, session.path⟩ session.rest with
    | .ok result rest => (.ok result, { session with rest })
    | .fail failure rest => (.error (.reading failure), { session with rest })

/-- Takes steps one after another, and lists what each yields with the place behind it. -/
def run (session : Session) : List Step → List (Except StepFailure Result × Nat)
  | [] => []
  | s :: more =>
    let (result, session) := session.step s
    (result, session.position) :: session.run more

end Session

end Slick
