import Slick.Error

/-!
# Reading token lists

A parser consumes tokens from the front of a list. Looking past the end shows the last
token of the whole list again, and nothing is consumed there. A parser that fails keeps the
tokens it has not consumed, so reading can go on behind a failure. What a parser reads and what it
refuses is located in the source whose path the parser is given.

Recursion goes through `Parser.fix`: a nested reading may only start at a shorter list than
the one it is nested in, and one that would not is reported as stalled. Main statement:
`fix_apply`, the equation that makes it a fixed point.
-/

namespace Slick

/-- Why reading stops. -/
inductive Failure where
  /-- The tokens do not follow the grammar. -/
  | refused (flaw : Flaw)
  /-- A minus sign stands before a value without a negative. -/
  | negation (fault : Value.NegationFault)
  /-- A nested reading consumed nothing before it started over. -/
  | stalled
  deriving Repr

/-- What a reading comes to, with the tokens it leaves. -/
inductive Outcome (α : Type) where
  | ok (result : α) (rest : List Token)
  | fail (failure : Failure) (rest : List Token)
  deriving Repr

/-- What stays the same in all parts of a reading. -/
structure Parser.Context where
  /-- The last token of the whole list, which stands for every place behind it. -/
  last : Token
  /-- The path of the source. -/
  path : Option String := none

/-- A reading of tokens. -/
def Parser (α : Type) : Type := Parser.Context → List Token → Outcome α

namespace Parser

instance : Monad Parser where
  pure a := fun _ tokens => .ok a tokens
  bind p f := fun ctx tokens =>
    match p ctx tokens with
    | .ok a rest => f a ctx rest
    | .fail failure rest => .fail failure rest

/-- Stops with a failure and consumes nothing. -/
def fail {α : Type} (failure : Failure) : Parser α := fun _ tokens => .fail failure tokens

/-- The path of the source. -/
def path : Parser (Option String) := fun ctx tokens => .ok ctx.path tokens

/-- The location of a token. -/
def locate (token : Token) : Parser Location := do return token.location (← path)

/-- Refuses the tokens because of a flaw at a token. -/
def refuse {α : Type} (cause : Cause) (token : Token) : Parser α := do
  let location ← locate token
  fail (.refused ⟨location, cause⟩)

/-- The next token. -/
def peek : Parser Token := fun ctx tokens => .ok (tokens.headD ctx.last) tokens

/-- The token behind the next one. -/
def peekSecond : Parser Token := fun ctx tokens => .ok (tokens.getD 1 ctx.last) tokens

/-- Consumes the next token. -/
def advance : Parser Token := fun ctx tokens => .ok (tokens.headD ctx.last) tokens.tail

/-- Consumes the next token, which has to be of the given kind and to have the wanted value. -/
def expect (kind : Kind) (wanted : Wanted := .any) : Parser Token := do
  let token ← advance
  if token.kind ≠ kind then
    refuse (.expectedKind kind wanted token.toLexeme) token
  else if wanted.accepts token.value then return token
  else refuse (.expectedValue wanted token.toLexeme) token

/-- Consumes the next token, which has to be the given reserved word. -/
def expectWord (word : String) : Parser Token := expect .keyword (.text word)

/-- Consumes the tokens up to the first that fails the test. -/
def takeWhile (test : Token → Bool) : Parser (List Token) :=
  fun _ tokens => .ok (tokens.takeWhile test) (tokens.dropWhile test)

/-- Consumes line ends. -/
def skipNewlines : Parser Unit := do
  let _ ← takeWhile (·.kind == .newline)

/-- Consumes line ends and commas. -/
def skipSeparators : Parser Unit := do
  let _ ← takeWhile fun token => token.kind == .newline || token.kind == .comma

/-- A reading that may only start at fewer than `size` tokens. -/
def below {α : Type} (size : Nat) (p : Parser α) : Parser α := fun ctx tokens =>
  if tokens.length < size then p ctx tokens else .fail .stalled tokens

/-- The reading that `step` describes in terms of itself, nested at most `fuel` times. -/
def nest {α β : Type} (step : (β → Parser α) → β → Parser α) : (fuel : Nat) → β → Parser α
  | 0, _ => fail .stalled
  | fuel + 1, b => fun ctx tokens =>
    step (fun b => (nest step fuel b).below tokens.length) b ctx tokens

/-- The reading that `step` describes in terms of itself. -/
def fix {α β : Type} (step : (β → Parser α) → β → Parser α) (b : β) : Parser α :=
  fun ctx tokens => nest step (tokens.length + 1) b ctx tokens

/-- Repeats a reading as long as the next two tokens pass the test, and lists the results. -/
def many {α : Type} (more : Token → Token → Bool) (item : Parser α) : Parser (List α) :=
  fix (fun again _ => do
    let token ← peek
    let second ← peekSecond
    if more token second then
      let first ← item
      let rest ← again ()
      return first :: rest
    else return []) ()

/-- Repeats a reading that takes over the result so far, as long as the next two tokens pass the
test. -/
def fold {α : Type} (more : Token → Token → Bool) (step : α → Parser α) : α → Parser α :=
  fix fun again result => do
    let token ← peek
    let second ← peekSecond
    if more token second then
      let next ← step result
      again next
    else return result

/-- A reading of nothing leaves the tokens as they are. -/
@[simp] theorem pure_apply {α : Type} (a : α) (ctx : Context) (tokens : List Token) :
    (pure a : Parser α) ctx tokens = .ok a tokens := rfl

/-- A reading goes on where the one before it has left off. -/
theorem bind_apply {α β : Type} (p : Parser α) (f : α → Parser β) (ctx : Context)
    (tokens : List Token) :
    (p >>= f) ctx tokens =
      match p ctx tokens with
      | .ok a rest => f a ctx rest
      | .fail failure rest => .fail failure rest := rfl

/-- A sequence succeeds if both of its parts do, the second on what the first leaves. -/
theorem bind_eq_ok_iff {α β : Type} {p : Parser α} {f : α → Parser β} {ctx : Context}
    {tokens rest : List Token} {b : β} :
    (p >>= f) ctx tokens = .ok b rest ↔
      ∃ a middle, p ctx tokens = .ok a middle ∧ f a ctx middle = .ok b rest := by
  rw [bind_apply]
  cases p ctx tokens with
  | ok a middle =>
    constructor
    · intro h
      exact ⟨a, middle, rfl, h⟩
    · rintro ⟨_, _, h, hf⟩
      simp only [Outcome.ok.injEq] at h
      obtain ⟨rfl, rfl⟩ := h
      exact hf
  | fail failure middle => simp

private theorem nest_eq_of_lt {α β : Type} (step : (β → Parser α) → β → Parser α) {fuel : Nat} :
    ∀ {more : Nat} {b : β} {ctx : Context} {tokens : List Token},
      tokens.length < fuel → tokens.length < more →
        nest step fuel b ctx tokens = nest step more b ctx tokens := by
  induction fuel with
  | zero => intro _ _ _ _ h; omega
  | succ fuel ih =>
    intro more b ctx tokens hfuel hmore
    cases more with
    | zero => omega
    | succ more =>
      simp only [nest]
      congr 1
      funext b' ctx' tokens'
      simp only [below]
      split
      · exact ih (by omega) (by omega)
      · rfl

/-- The recursive reading is its own step, with nested readings restricted to shorter lists. -/
theorem fix_apply {α β : Type} (step : (β → Parser α) → β → Parser α) (b : β) (ctx : Context)
    (tokens : List Token) :
    fix step b ctx tokens = step (fun b => (fix step b).below tokens.length) b ctx tokens := by
  simp only [fix, nest]
  congr 1
  funext b' ctx' tokens'
  simp only [below]
  split
  · exact nest_eq_of_lt step (by omega) (by omega)
  · rfl

end Parser

end Slick
