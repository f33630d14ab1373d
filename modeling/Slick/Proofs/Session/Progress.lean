import Slick.Proofs.Decimal.Negation
import Slick.Proofs.Grammar.ProgramSoundness
import Slick.Proofs.Program.Forward
import Slick.Session

/-!
# Sessions move forward

A session may call any reading at any place, also behind a failure and behind the end of the source.
Each call comes to a result or to a refusal at a place: no reading starts over where it started,
none looks for a token that is not there, and none meets a value that it cannot use. The place never
moves back and never leaves the tokens. Main statement: `Session.run_progresses`.
-/

namespace Slick

open Slick.Parser

variable {ctx : Context} {tokens : List Token}

/-- Behind the end of the source no list starts. -/
theorem Expr.listForm_end (expr : Parser Expr) (hlast : ctx.last.kind = .eof) :
    (Expr.listForm expr ctx []).Forward 1 [] := by
  rw [listForm, advance_bind, skipSeparators_bind]
  refine bind_forward ?_ fun elements rest _ hless => ?_
  · rw [many_apply, if_pos (by simp [hlast])]
    refine bind_forward ?_ fun element rest _ hless => ?_
    · rw [peek_bind, List.headD_nil, if_pos hlast]
      exact refuse_forward _ _ _ _
    · simp at hless
  · simp at hless

/-- Behind the end of the source no record starts. -/
theorem Expr.recordForm_end {expr : Parser Expr} (h : Throughout ctx expr []) :
    (Expr.recordForm expr ctx []).Forward 1 [] := by
  simp only [recordForm, advance_bind, List.headD_nil, List.tail_nil, skipNewlines_bind,
    List.dropWhile_nil, peek_bind, peekSecond_bind, h.last_eof, reduceCtorEq, false_and, or_false,
    if_false]
  refine bind_forward h.here fun target rest _ hless => ?_
  simp at hless

/-- Whatever is expected, looking for it does not move back. -/
theorem Parser.expect_within (kind : Kind) (wanted : Wanted) (ctx : Context) (tokens : List Token) :
    (expect kind wanted ctx tokens).Forward 0 tokens := by
  rw [expect, advance_bind]
  refine Outcome.Forward.within ?_ (List.tail_suffix tokens)
  split
  · exact refuse_forward _ _ _ _
  split
  · exact pure_forward _ _ _
  · exact refuse_forward _ _ _ _

namespace Session

/-- How many tokens a piece of grammar has at least. Only a program may be empty. -/
def Production.least : Production → Nat
  | .program => 0
  | _ => 1

/-- Every piece of grammar is read, and has its tokens, or is refused. -/
theorem Production.parser_forward (hlast : ctx.last.kind = .eof) (hnegatable : Negatable tokens)
    (production : Production) :
    (production.parser ctx tokens).Forward production.least tokens := by
  have hexpr := Expr.parser_throughout hlast hnegatable
  have hinside := hexpr.of_suffix (List.tail_suffix tokens)
  cases production with
  | program => exact bind_pure_forward (Program.form_forward hlast hnegatable)
  | statement => exact bind_pure_forward (Stmt.parser_forward hlast hnegatable)
  | binding => exact bind_pure_forward (Stmt.bindingForm_forward hlast hnegatable)
  | customType => exact bind_pure_forward (Stmt.customTypeForm_forward hlast hnegatable)
  | type => exact bind_pure_forward (TypeExpr.parser_forward hlast hnegatable)
  | block => exact bind_pure_forward (Expr.block_forward hexpr)
  | expression => exact bind_pure_forward hexpr.here
  | function => exact bind_pure_forward (Expr.functionForm_forward hinside)
  | conditional => exact bind_pure_forward (Expr.conditionalForm_forward hinside)
  | select => exact bind_pure_forward (Expr.selectForm_forward hinside)
  | arm => exact bind_pure_forward (Expr.arm_forward hexpr)
  | disjunction => exact bind_pure_forward (Expr.disjunction_forward hexpr.ahead)
  | conjunction => exact bind_pure_forward (Expr.conjunction_forward hexpr.ahead)
  | comparison => exact bind_pure_forward (Expr.comparison_forward hexpr.ahead)
  | additive => exact bind_pure_forward (Expr.additive_forward hexpr.ahead)
  | term => exact bind_pure_forward (Expr.term_forward hexpr.ahead)
  | call => exact bind_pure_forward (Expr.callForm_forward hexpr.ahead)
  | access => exact bind_pure_forward (Expr.access_forward hexpr.ahead)
  | primary => exact bind_pure_forward (Expr.primary_forward hexpr.ahead)
  | list =>
    -- A list or a record consumes its first token unseen, and at the end there is none.
    cases tokens with
    | nil => exact bind_pure_forward (Expr.listForm_end _ hlast)
    | cons token rest => exact bind_pure_forward (Expr.listForm_forward hinside)
  | record =>
    cases tokens with
    | nil => exact bind_pure_forward (Expr.recordForm_end hexpr)
    | cons token rest => exact bind_pure_forward (Expr.recordForm_forward hinside)

/-- Every action keeps within the tokens and comes to a result or a refusal. -/
theorem Action.parser_forward (hlast : ctx.last.kind = .eof) (hnegatable : Negatable tokens)
    (action : Action) : (action.parser ctx tokens).Forward 0 tokens := by
  cases action with
  | advance => exact (pure_forward _ ctx _).within (List.tail_suffix tokens)
  | test kind wanted => exact pure_forward _ _ _
  | testTruth => exact pure_forward _ _ _
  | expect kind wanted => exact bind_pure_forward (expect_within kind wanted ctx tokens)
  | report message => exact pure_forward _ _ _
  | skipNewlines => exact skipNewlines_bind_forward fun rest _ => pure_forward _ _ _
  | skipSeparators => exact skipSeparators_bind_forward fun rest _ => pure_forward _ _ _
  | read production => exact (production.parser_forward hlast hnegatable).weaken

/-- A program is read up to the end of the source, and behind that end there is an empty one. -/
theorem program_stops (hlast : ctx.last.kind = .eof)
    (htokens : tokens ≠ [] → tokens.getLast? = some ctx.last)
    {result : Result} {rest : List Token}
    (h : Production.program.parser ctx tokens = .ok result rest) :
    (∃ token ∈ rest.head?, token.kind = .eof) ∨ tokens = [] ∧ rest = [] := by
  obtain ⟨program, behind, hform, hresult⟩ := bind_eq_ok_iff.mp h
  cases hresult
  obtain ⟨statements, behind, hread, hpath⟩ := bind_eq_ok_iff.mp hform
  cases hpath
  obtain ⟨used, rfl, hspells, hstop⟩ := Grammar.statementsForm_reads hlast hread
  cases rest with
  | cons token rest => exact .inl ⟨token, rfl, hstop⟩
  | nil =>
    refine .inr ⟨?_, rfl⟩
    -- What spells a program does not reach the end of the source, so nothing was there.
    by_contra hne
    rw [List.append_nil] at hne htokens
    exact hspells.noEnd ctx.last (List.mem_of_getLast? (htokens hne)) hlast

/-- What a call may come to: a result, or a refusal of the tokens at a place. -/
def Settled : Except StepFailure Result → Prop
  | .ok _ | .error (.reading (.refused _)) => True
  | .error _ => False

/-- What a call does at one place of the tokens, with the place that it leaves. -/
structure Advances (tokens : List Token) (place : Nat) (action : Action)
    (answer : Except StepFailure Result) (next : Nat) : Prop where
  settled : Settled answer
  not_back : place ≤ next
  within : next ≤ tokens.length
  /-- A piece of grammar that is read consumes a token, unless it is a whole program. -/
  consumes : ∀ production result, action = .read production → production ≠ .program →
    answer = .ok result → place < next
  /-- A program is read up to an end of the source. -/
  stops : ∀ result, action = .read .program → answer = .ok result →
    (∃ token, tokens[next]? = some token ∧ token.kind = .eof) ∨
      place = tokens.length ∧ next = tokens.length

/-- Answers to calls one after another, each at the place where the call before has left off. -/
inductive Progresses (tokens : List Token) :
    Nat → List Action → List (Except StepFailure Result × Nat) → Prop where
  | done {place : Nat} : Progresses tokens place [] []
  | call {place next : Nat} {action : Action} {more : List Action}
      {answer : Except StepFailure Result} {answers : List (Except StepFailure Result × Nat)} :
    Advances tokens place action answer next → Progresses tokens next more answers →
    Progresses tokens place (action :: more) ((answer, next) :: answers)

/-- What is left of a list determines the place, and the token that stands there. -/
theorem getElem?_position {session : Session} (h : session.rest <:+ session.tokens) :
    session.tokens[session.position]? = session.rest.head? := by
  obtain ⟨front, hfront⟩ := h
  have hposition : session.position = front.length := by
    rw [position, ← hfront, List.length_append]
    omega
  rw [hposition, ← hfront, List.getElem?_append_right (Nat.le_refl _), Nat.sub_self,
    List.head?_eq_getElem?]

/-- One call moves a session forward. -/
theorem step_advances {session : Session} {last : Token}
    (hlast : session.tokens.getLast? = some last) (heof : last.kind = .eof)
    (hnegatable : Negatable session.tokens) (hrest : session.rest <:+ session.tokens)
    (action : Action) :
    (session.step (.act action)).2.tokens = session.tokens ∧
      (session.step (.act action)).2.rest <:+ session.tokens ∧
      Advances session.tokens session.position action (session.step (.act action)).1
        (session.step (.act action)).2.position := by
  have hend : (⟨last, session.path⟩ : Context).last.kind = .eof := heof
  have hnegatableRest := hnegatable.of_suffix hrest
  have hlength := hrest.length_le
  have hforward := action.parser_forward hend hnegatableRest
  simp only [step, hlast]
  cases hread : action.parser ⟨last, session.path⟩ session.rest with
  | fail failure rest =>
    rw [hread] at hforward
    cases hforward with
    | refused hsuffix =>
      have hshort := hsuffix.length_le
      refine ⟨rfl, hsuffix.trans hrest, ⟨trivial, ?_, ?_, ?_, ?_⟩⟩
      · simp only [position]
        omega
      · simp only [position]
        omega
      · intro _ _ _ _ hok
        cases hok
      · intro _ _ hok
        cases hok
  | ok result rest =>
    rw [hread] at hforward
    cases hforward with
    | ok hsuffix hless =>
      have hnext : rest <:+ session.tokens := hsuffix.trans hrest
      refine ⟨rfl, hnext, ⟨trivial, ?_, ?_, ?_, ?_⟩⟩
      · simp only [position]
        omega
      · simp only [position]
        omega
      · rintro production _ rfl hproduction -
        have hconsumed := production.parser_forward hend hnegatableRest
        rw [show production.parser ⟨last, session.path⟩ session.rest = .ok result rest from hread]
          at hconsumed
        cases hconsumed with
        | ok _ hleast =>
          have hone : production.least = 1 := by cases production <;> trivial
          simp only [position]
          omega
      · rintro _ rfl -
        have hstart : session.rest ≠ [] → session.rest.getLast? = some last := by
          intro hne
          obtain ⟨front, hfront⟩ := hrest
          rw [← hfront, List.getLast?_append] at hlast
          rw [← hlast, List.getLast?_eq_some_getLast hne, Option.some_or]
        rcases program_stops hend hstart hread with ⟨token, htoken, hkind⟩ | ⟨hnone, rfl⟩
        · refine .inl ⟨token, ?_, hkind⟩
          rw [@getElem?_position { session with rest } hnext]
          exact htoken
        · refine .inr ⟨?_, ?_⟩
          · simp only [position, hnone, List.length_nil, Nat.sub_zero]
          · simp only [position, List.length_nil, Nat.sub_zero]

/-- Calls that start anywhere in the tokens progress from there. -/
theorem run_progresses_from {session : Session} {last : Token}
    (hlast : session.tokens.getLast? = some last) (heof : last.kind = .eof)
    (hnegatable : Negatable session.tokens) (hrest : session.rest <:+ session.tokens)
    (actions : List Action) :
    Progresses session.tokens session.position actions (session.run (actions.map .act)) := by
  induction actions generalizing session with
  | nil => exact .done
  | cons action more ih =>
    obtain ⟨htokens, hnext, hadvances⟩ := step_advances hlast heof hnegatable hrest action
    have hmore := @ih (session.step (.act action)).2 (by rwa [htokens])
      (by rwa [htokens]) (by rwa [htokens])
    rw [htokens] at hmore
    exact .call hadvances hmore

/-- **Progress.** Take tokens that end with the end of the source and whose numerals have finite
values within the limits of the decimal context. Then any calls, one after another from the start,
also behind failures and behind the end, each come to a result or to a refusal at a place. The place
never moves back and never leaves the tokens; a piece of grammar that is read has consumed a token,
and a program is read up to an end of the source. -/
theorem run_progresses {tokens : List Token} {last : Token} (hlast : tokens.getLast? = some last)
    (heof : last.kind = .eof)
    (hnumerals : ∀ token ∈ tokens, token.kind = .number →
      ∃ d, token.value = .decimal d ∧ d.WithinLimits .standard)
    (path : Option String) (actions : List Action) :
    Progresses tokens 0 actions ((start tokens path).run (actions.map .act)) := by
  have hnegatable : Negatable tokens := by
    intro token htoken hkind
    obtain ⟨d, hvalue, hlimits⟩ := hnumerals token htoken hkind
    obtain ⟨negative, hnegative⟩ :=
      hlimits.exists_negate Decimal.Context.standard_sound (by decide)
    exact ⟨.decimal negative, by rw [hvalue, Value.negate, hnegative]⟩
  have hstart : (start tokens path).position = 0 := Nat.sub_self _
  rw [← hstart]
  exact @run_progresses_from (start tokens path) last hlast heof hnegatable
    (List.suffix_refl tokens) actions

/-- The tokens of the line `[-12`, with the end of the source behind them. -/
def listUpToNumeral : List Token :=
  [⟨⟨.lbracket, "[", .nothing⟩, ⟨1, 1⟩⟩, ⟨⟨.minus, "-", .nothing⟩, ⟨1, 2⟩⟩,
    ⟨⟨.number, "12", .decimal (.finite false 12 0)⟩, ⟨1, 3⟩⟩, ⟨.newline, ⟨1, 5⟩⟩, ⟨.eof, ⟨2, 1⟩⟩]

/-- Behind a list that is refused, calls go on up to the end of the source and behind it. -/
theorem run_progresses_listUpToNumeral :
    listUpToNumeral.getLast? = some ⟨.eof, ⟨2, 1⟩⟩ ∧
      (∀ token ∈ listUpToNumeral, token.kind = .number →
        ∃ d, token.value = .decimal d ∧ d.WithinLimits .standard) ∧
      Progresses listUpToNumeral 0
        [.read .list, .read .program, .advance, .read .record, .expect .eof .any, .read .program]
        ((start listUpToNumeral none).run
          [.act (.read .list), .act (.read .program), .act .advance, .act (.read .record),
            .act (.expect .eof .any), .act (.read .program)]) := by
  have hnumerals : ∀ token ∈ listUpToNumeral, token.kind = .number →
      ∃ d, token.value = .decimal d ∧ d.WithinLimits .standard := by
    have htwelve : (Decimal.finite false 12 0).WithinLimits .standard := .inr (by decide +kernel)
    simpa [listUpToNumeral, Lexeme.newline, Lexeme.eof] using htwelve
  exact ⟨rfl, hnumerals, run_progresses rfl rfl hnumerals none _⟩

end Session

end Slick
