import Mathlib.Tactic.Common
import Slick.Parser

/-!
# Steps of a reading

Two ways to reason about readings. Forwards, a reading is evaluated on a list of known shape:
each step that succeeds hands its result and the rest of the tokens to the next one. Backwards,
a reading that has succeeded is taken apart into its steps. The recursive readings `fix`, `many`
and `fold` get one unfolding equation for the first way and one induction principle for the
second. The principles say nothing about lengths: the guard that keeps nested readings to shorter
lists can only turn a success into a failure.
-/

namespace Slick.Parser

variable {α β : Type} {ctx : Context} {tokens rest middle : List Token}

/-- If the first part of a sequence succeeds, the sequence goes on with what it leaves. -/
theorem bind_of_ok {p : Parser α} {f : α → Parser β} {a : α}
    (h : p ctx tokens = .ok a middle) : (p >>= f) ctx tokens = f a ctx middle := by
  rw [bind_apply, h]

/-- A look at the next token consumes nothing; behind the tokens the last one stands. -/
@[simp] theorem peek_bind (f : Token → Parser β) (ctx : Context) (tokens : List Token) :
    (peek >>= f) ctx tokens = f (tokens.headD ctx.last) ctx tokens := rfl

/-- A look at the token behind the next one consumes nothing. -/
@[simp] theorem peekSecond_bind (f : Token → Parser β) (ctx : Context) (tokens : List Token) :
    (peekSecond >>= f) ctx tokens = f (tokens.getD 1 ctx.last) ctx tokens := rfl

/-- To advance consumes the next token if there is one. -/
@[simp] theorem advance_bind (f : Token → Parser β) (ctx : Context) (tokens : List Token) :
    (advance >>= f) ctx tokens = f (tokens.headD ctx.last) ctx tokens.tail := rfl

/-- On a list with a first token the next token is that one. -/
theorem peek_bind_cons (f : Token → Parser β) (ctx : Context) (token : Token)
    (tokens : List Token) :
    (peek >>= f) ctx (token :: tokens) = f token ctx (token :: tokens) := rfl

/-- Behind a token the next one is the second. -/
theorem peekSecond_bind_cons (f : Token → Parser β) (ctx : Context) (token : Token)
    (tokens : List Token) :
    (peekSecond >>= f) ctx (token :: tokens) = f (tokens.headD ctx.last) ctx (token :: tokens) := by
  cases tokens <;> rfl

/-- To advance consumes the first token. -/
theorem advance_bind_cons (f : Token → Parser β) (ctx : Context) (token : Token)
    (tokens : List Token) :
    (advance >>= f) ctx (token :: tokens) = f token ctx tokens := rfl

/-- A run of tokens is consumed up to the first that does not pass the test. -/
@[simp] theorem takeWhile_bind (test : Token → Bool) (f : List Token → Parser β) (ctx : Context)
    (tokens : List Token) :
    (takeWhile test >>= f) ctx tokens =
      f (tokens.takeWhile test) ctx (tokens.dropWhile test) := rfl

/-- Ends of lines are consumed up to the first other token. -/
@[simp] theorem skipNewlines_bind (f : Unit → Parser β) (ctx : Context) (tokens : List Token) :
    (skipNewlines >>= f) ctx tokens =
      f () ctx (tokens.dropWhile fun token => token.kind == .newline) := rfl

/-- Ends of lines and commas are consumed up to the first other token. -/
@[simp] theorem skipSeparators_bind (f : Unit → Parser β) (ctx : Context) (tokens : List Token) :
    (skipSeparators >>= f) ctx tokens =
      f () ctx (tokens.dropWhile fun token => token.kind == .newline || token.kind == .comma) :=
  rfl

/-- The path under which the tokens are read is at hand everywhere. -/
@[simp] theorem path_bind (f : Option String → Parser β) (ctx : Context) (tokens : List Token) :
    (path >>= f) ctx tokens = f ctx.path ctx tokens := rfl

/-- A token is located under the path of the tokens. -/
@[simp] theorem locate_bind (token : Token) (f : Location → Parser β) (ctx : Context)
    (tokens : List Token) :
    (locate token >>= f) ctx tokens = f (token.location ctx.path) ctx tokens := rfl

/-- A refusal is no result. -/
@[simp] theorem refuse_ne_ok (cause : Cause) (token : Token) (a : α) :
    (refuse cause token : Parser α) ctx tokens ≠ .ok a rest := by
  intro h
  cases h

/-- An expected token that is there is consumed. -/
theorem expect_cons {token : Token} {kind : Kind} {wanted : Wanted} (hkind : token.kind = kind)
    (hvalue : wanted.accepts token.value = true) (ctx : Context) (tokens : List Token) :
    expect kind wanted ctx (token :: tokens) = .ok token tokens := by
  simp [expect, hkind, hvalue]

/-- An expected token of any value that is there is consumed. -/
theorem expect_any_cons {token : Token} {kind : Kind} (hkind : token.kind = kind) (ctx : Context)
    (tokens : List Token) : expect kind .any ctx (token :: tokens) = .ok token tokens :=
  expect_cons hkind rfl ctx tokens

/-- An expected reserved word that is there is consumed. -/
theorem expectWord_cons {token : Token} {word : String} (hword : token.isWord word = true)
    (ctx : Context) (tokens : List Token) :
    expectWord word ctx (token :: tokens) = .ok token tokens := by
  simp only [Lexeme.isWord, Bool.and_eq_true, beq_iff_eq] at hword
  exact expect_cons hword.1 hword.2 ctx tokens

/-- Behind the end of the source nothing is found, so an expected token was there. -/
theorem eq_cons_of_expect {token : Token} {kind : Kind} {wanted : Wanted}
    (hlast : ctx.last.kind = .eof) (hkind : kind ≠ .eof)
    (h : expect kind wanted ctx tokens = .ok token rest) :
    tokens = token :: rest ∧ token.kind = kind ∧ wanted.accepts token.value = true := by
  simp only [expect, advance_bind] at h
  split at h
  · exact absurd h (refuse_ne_ok _ _ _)
  · next hfound =>
    rw [not_not] at hfound
    split at h
    · next haccepts =>
      simp only [pure_apply, Outcome.ok.injEq] at h
      obtain ⟨rfl, rfl⟩ := h
      cases tokens with
      | nil =>
        rw [List.headD_nil, hlast] at hfound
        exact absurd hfound.symm hkind
      | cons token tokens => exact ⟨rfl, hfound, haccepts⟩
    · exact absurd h (refuse_ne_ok _ _ _)

/-- An expected reserved word was there. -/
theorem eq_cons_of_expectWord {token : Token} {word : String} (hlast : ctx.last.kind = .eof)
    (h : expectWord word ctx tokens = .ok token rest) :
    tokens = token :: rest ∧ token.isWord word = true := by
  obtain ⟨htokens, hkind, haccepts⟩ := eq_cons_of_expect hlast (by decide) h
  exact ⟨htokens, by simp [Lexeme.isWord, hkind, haccepts]⟩

/-- A next token that is not the end of the source is the first of the list. -/
theorem eq_cons_of_kind_ne_eof (hlast : ctx.last.kind = .eof)
    (h : (tokens.headD ctx.last).kind ≠ .eof) : tokens = tokens.headD ctx.last :: tokens.tail := by
  cases tokens with
  | nil => exact absurd hlast h
  | cons token tokens => rfl

/-- A guarded reading that succeeds is a reading that succeeds. -/
theorem ok_of_below {p : Parser α} {size : Nat} {a : α}
    (h : p.below size ctx tokens = .ok a rest) : p ctx tokens = .ok a rest := by
  unfold below at h
  split at h
  · exact h
  · cases h

/-- The guard lets shorter lists pass. -/
theorem below_of_lt {p : Parser α} {size : Nat} (h : tokens.length < size) :
    p.below size ctx tokens = p ctx tokens :=
  if_pos h

/-- What holds of the successes of a step, given that it holds of those of the nested readings,
holds of the successes of the recursive reading. -/
theorem fix_induct {step : (β → Parser α) → β → Parser α}
    {P : β → List Token → α → List Token → Prop}
    (hstep : ∀ again : β → Parser α,
      (∀ b tokens a rest, again b ctx tokens = .ok a rest → P b tokens a rest) →
      ∀ b tokens a rest, step again b ctx tokens = .ok a rest → P b tokens a rest)
    {b : β} {a : α} (h : fix step b ctx tokens = .ok a rest) : P b tokens a rest := by
  have strong : ∀ (size : Nat) (b : β) (tokens : List Token) (a : α) (rest : List Token),
      tokens.length < size → fix step b ctx tokens = .ok a rest → P b tokens a rest := by
    intro size
    induction size with
    | zero => intro _ _ _ _ hsize; omega
    | succ size ih =>
      intro b tokens a rest hsize hok
      rw [fix_apply] at hok
      refine hstep _ ?_ b tokens a rest hok
      intro b' tokens' a' rest' hnested
      have hshort : tokens'.length < tokens.length := by
        by_contra hlong
        simp [below, hlong] at hnested
      exact ih b' tokens' a' rest' (by omega) (ok_of_below hnested)
  exact strong (tokens.length + 1) b tokens a rest (by omega) h

/-- A repetition reads one more item if the next two tokens pass the test. -/
theorem many_apply (more : Token → Token → Bool) (item : Parser α) (ctx : Context)
    (tokens : List Token) :
    many more item ctx tokens =
      if more (tokens.headD ctx.last) (tokens.getD 1 ctx.last) then
        (item >>= fun first => (many more item).below tokens.length >>= fun others =>
          pure (first :: others)) ctx tokens
      else .ok [] tokens := by
  rw [many, fix_apply]
  simp only [peek_bind, peekSecond_bind]
  split <;> rfl

/-- A repetition ends where the test fails. -/
theorem many_of_stop {more : Token → Token → Bool} {item : Parser α}
    (hstop : more (tokens.headD ctx.last) (tokens.getD 1 ctx.last) = false) :
    many more item ctx tokens = .ok [] tokens := by
  rw [many_apply, hstop]
  rfl

/-- A repetition goes on behind an item. -/
theorem many_of_more {more : Token → Token → Bool} {item : Parser α} {first : α} {others : List α}
    (hmore : more (tokens.headD ctx.last) (tokens.getD 1 ctx.last) = true)
    (hitem : item ctx tokens = .ok first middle) (hshort : middle.length < tokens.length)
    (hothers : many more item ctx middle = .ok others rest) :
    many more item ctx tokens = .ok (first :: others) rest := by
  rw [many_apply, if_pos hmore, bind_of_ok hitem]
  rw [bind_of_ok ((below_of_lt hshort).trans hothers)]
  rfl

/-- Induction over the items of a successful repetition, from the last one on. -/
theorem many_induct {more : Token → Token → Bool} {item : Parser α}
    {P : List Token → List α → List Token → Prop}
    (hstop : ∀ tokens, more (tokens.headD ctx.last) (tokens.getD 1 ctx.last) = false →
      P tokens [] tokens)
    (hmore : ∀ tokens first middle others rest,
      more (tokens.headD ctx.last) (tokens.getD 1 ctx.last) = true →
      item ctx tokens = .ok first middle → P middle others rest →
      P tokens (first :: others) rest)
    {items : List α} (h : many more item ctx tokens = .ok items rest) : P tokens items rest := by
  refine fix_induct (P := fun _ tokens items rest => P tokens items rest) ?_ h
  intro again hagain _ tokens items rest hok
  simp only [peek_bind, peekSecond_bind] at hok
  split at hok
  · next htest =>
    obtain ⟨first, middle, hitem, hok⟩ := bind_eq_ok_iff.mp hok
    obtain ⟨others, rest', hothers, hok⟩ := bind_eq_ok_iff.mp hok
    simp only [pure_apply, Outcome.ok.injEq] at hok
    obtain ⟨rfl, rfl⟩ := hok
    exact hmore tokens first middle others rest' htest hitem (hagain () _ _ _ hothers)
  · next htest =>
    simp only [pure_apply, Outcome.ok.injEq] at hok
    obtain ⟨rfl, rfl⟩ := hok
    exact hstop tokens (by simpa using htest)

/-- A loop takes one more step if the next two tokens pass the test. -/
theorem fold_apply (more : Token → Token → Bool) (step : α → Parser α) (a : α) (ctx : Context)
    (tokens : List Token) :
    fold more step a ctx tokens =
      if more (tokens.headD ctx.last) (tokens.getD 1 ctx.last) then
        (step a >>= fun next => (fold more step next).below tokens.length) ctx tokens
      else .ok a tokens := by
  rw [fold, fix_apply]
  simp only [peek_bind, peekSecond_bind]
  split <;> rfl

/-- A loop ends where the test fails. -/
theorem fold_of_stop {more : Token → Token → Bool} {step : α → Parser α} (a : α)
    (hstop : more (tokens.headD ctx.last) (tokens.getD 1 ctx.last) = false) :
    fold more step a ctx tokens = .ok a tokens := by
  rw [fold_apply, hstop]
  rfl

/-- A loop goes on behind a step. -/
theorem fold_of_more {more : Token → Token → Bool} {step : α → Parser α} {a b : α}
    (hmore : more (tokens.headD ctx.last) (tokens.getD 1 ctx.last) = true)
    (hstep : step a ctx tokens = .ok b middle) (hshort : middle.length < tokens.length) :
    fold more step a ctx tokens = fold more step b ctx middle := by
  rw [fold_apply, if_pos hmore, bind_of_ok hstep, below_of_lt hshort]

/-- Induction over the steps of a successful loop, from the last one on. -/
theorem fold_induct {more : Token → Token → Bool} {step : α → Parser α}
    {P : α → List Token → α → List Token → Prop}
    (hstop : ∀ a tokens, more (tokens.headD ctx.last) (tokens.getD 1 ctx.last) = false →
      P a tokens a tokens)
    (hmore : ∀ a tokens b middle result rest,
      more (tokens.headD ctx.last) (tokens.getD 1 ctx.last) = true →
      step a ctx tokens = .ok b middle → P b middle result rest → P a tokens result rest)
    {a result : α} (h : fold more step a ctx tokens = .ok result rest) :
    P a tokens result rest := by
  refine fix_induct (P := P) ?_ h
  intro again hagain a tokens result rest hok
  simp only [peek_bind, peekSecond_bind] at hok
  split at hok
  · next htest =>
    obtain ⟨b, middle, hstep, hok⟩ := bind_eq_ok_iff.mp hok
    exact hmore a tokens b middle result rest htest hstep (hagain b _ _ _ hok)
  · next htest =>
    simp only [pure_apply, Outcome.ok.injEq] at hok
    obtain ⟨rfl, rfl⟩ := hok
    exact hstop a tokens (by simpa using htest)

/-- What every step of a loop keeps holds at its end, where the test fails. -/
theorem fold_invariant {more : Token → Token → Bool} {step : α → Parser α}
    {I : α → List Token → Prop}
    (hmore : ∀ a tokens b middle, I a tokens →
      more (tokens.headD ctx.last) (tokens.getD 1 ctx.last) = true →
      step a ctx tokens = .ok b middle → I b middle)
    {a result : α} (h : fold more step a ctx tokens = .ok result rest) (hstart : I a tokens) :
    I result rest ∧ more (rest.headD ctx.last) (rest.getD 1 ctx.last) = false := by
  refine fold_induct (P := fun a tokens result rest => I a tokens →
    I result rest ∧ more (rest.headD ctx.last) (rest.getD 1 ctx.last) = false) ?_ ?_ h hstart
  · intro a tokens hstop ha
    exact ⟨ha, hstop⟩
  · intro a tokens b middle result rest htest hstep ih ha
    exact ih (hmore a tokens b middle ha htest hstep)

end Slick.Parser
