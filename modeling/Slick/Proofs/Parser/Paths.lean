import Slick.Proofs.Line.Places
import Slick.Proofs.Parser.Steps

/-!
# The path decides nothing

Two copies of a source differ in their paths only. A reading takes the same steps in both: what it
finds in the second copy is what it finds in the first one, with the other path in every location,
and it refuses the same token for the same cause. A refused token is one of those that are read, so
if these stand at good places, whatever "good" means, the flaw stands at a good place as well. Each
building block of the readings gets one rule, so a production is covered by following its steps.
Main statements: `bind_alike`, `fix_alike`, `many_follows` and `fold_follows`.
-/

namespace Slick

/-- The token stands at a good place. -/
def Token.At (good : Position → Prop) (token : Token) : Prop := good token.toPosition

/-- Two copies of a source: their paths, and where the tokens of both may stand. -/
structure Copies where
  good : Position → Prop
  path : Option String
  path' : Option String

/-- From the first copy to the same place in the second. -/
def Copies.move (copies : Copies) : Move := .into copies.path'

/-- A token shows no path. -/
theorem Copies.map_moved (copies : Copies) (tokens : List Token) :
    tokens.map (Token.moved copies.move) = tokens :=
  List.map_id tokens

/-- What a reading comes to in the first copy and in the second. Results are compared by `same`, and
what is left is the same and stands at good places. -/
inductive Outcome.Alike {α : Type} (copies : Copies) (same : α → α → Prop) :
    Outcome α → Outcome α → Prop where
  | ok {a a' : α} {rest : List Token} : same a a' → (∀ token ∈ rest, token.At copies.good) →
    Alike copies same (.ok a rest) (.ok a' rest)
  | refused {flaw : Flaw} {rest : List Token} :
    copies.good flaw.toPosition → flaw.path = copies.path →
    Alike copies same (.fail (.refused flaw) rest) (.fail (.refused (flaw.moved copies.move)) rest)
  | negation {fault : Value.NegationFault} {rest : List Token} :
    Alike copies same (.fail (.negation fault) rest) (.fail (.negation fault) rest)
  | stalled {rest : List Token} : Alike copies same (.fail .stalled rest) (.fail .stalled rest)

namespace Parser

variable {α β : Type} {copies : Copies}

/-- Of the same tokens, at good places, the first reading makes in the first copy what the second
one makes in the second copy. -/
def Alike (copies : Copies) (same : α → α → Prop) (p q : Parser α) : Prop :=
  ∀ last tokens, last.At copies.good → (∀ token ∈ tokens, token.At copies.good) →
    (p ⟨last, copies.path⟩ tokens).Alike copies same (q ⟨last, copies.path'⟩ tokens)

/-- The reading gives the same result in both copies, and the result has the property. -/
def Agrees (copies : Copies) (result : α → Prop) (p : Parser α) : Prop :=
  p.Alike copies (fun a a' => a' = a ∧ result a) p

/-- The result in the second copy is the one in the first copy, carried over. -/
def Follows (copies : Copies) (carry : α → α) (p : Parser α) : Prop :=
  p.Alike copies (fun a a' => a' = carry a) p

/-- A reading without tokens compares as its results do. -/
theorem pure_alike {same : α → α → Prop} {a a' : α} (h : same a a') :
    (pure a : Parser α).Alike copies same (pure a') :=
  fun _ _ _ htokens => .ok h htokens

/-- A token is refused at its own place, under the path of the copy. -/
theorem refuse_alike {same : α → α → Prop} {token : Token} (cause : Cause)
    (h : token.At copies.good) :
    (refuse cause token : Parser α).Alike copies same (refuse cause token) :=
  fun _ _ _ _ => .refused h rfl

/-- Sequences compare as their parts do. -/
theorem bind_alike {p q : Parser α} {f g : α → Parser β} {first : α → α → Prop}
    {same : β → β → Prop} (hp : p.Alike copies first q)
    (hf : ∀ a a', first a a' → (f a).Alike copies same (g a')) :
    (p >>= f).Alike copies same (q >>= g) := by
  intro last tokens hlast htokens
  have hfirst := hp last tokens hlast htokens
  rw [bind_apply, bind_apply]
  generalize p ⟨last, copies.path⟩ tokens = outcome at hfirst ⊢
  generalize q ⟨last, copies.path'⟩ tokens = outcome' at hfirst ⊢
  cases hfirst with
  | ok ha hrest => exact hf _ _ ha last _ hlast hrest
  | refused hgood hpath => exact .refused hgood hpath
  | negation => exact .negation
  | stalled => exact .stalled

/-- A sequence that starts with a result both copies have in common. -/
theorem bind_agrees {p : Parser α} {f g : α → Parser β} {result : α → Prop}
    {same : β → β → Prop} (hp : p.Agrees copies result)
    (hf : ∀ a, result a → (f a).Alike copies same (g a)) :
    (p >>= f).Alike copies same (p >>= g) := by
  refine bind_alike hp ?_
  rintro a _ ⟨rfl, ha⟩
  exact hf _ ha

/-- A sequence that starts with a result that is carried over. -/
theorem bind_follows {p : Parser α} {f g : α → Parser β} {carry : α → α}
    {same : β → β → Prop} (hp : p.Follows copies carry)
    (hf : ∀ a, (f a).Alike copies same (g (carry a))) :
    (p >>= f).Alike copies same (p >>= g) := by
  refine bind_alike hp ?_
  rintro a _ rfl
  exact hf a

/-- Both copies take the same branch. -/
theorem ite_alike {c : Prop} [Decidable c] {p p' q q' : Parser α} {same : α → α → Prop}
    (hp : p.Alike copies same q) (hp' : p'.Alike copies same q') :
    (if c then p else p').Alike copies same (if c then q else q') := by
  split
  · exact hp
  · exact hp'

/-- The location of a token has the path of the copy. -/
theorem locate_follows (token : Token) :
    (locate token).Follows copies (Location.moved copies.move) :=
  fun _ _ _ htokens => .ok rfl htokens

private theorem headD_at {good : Position → Prop} {last : Token} {tokens : List Token}
    (hlast : last.At good) (htokens : ∀ token ∈ tokens, token.At good) :
    (tokens.headD last).At good := by
  cases tokens with
  | nil => exact hlast
  | cons token tokens => exact htokens token (by simp)

/-- The next token is the same under both paths. -/
theorem peek_agrees : peek.Agrees copies (Token.At copies.good) :=
  fun _ _ hlast htokens => .ok ⟨rfl, headD_at hlast htokens⟩ htokens

/-- The token behind the next one is the same under both paths. -/
theorem peekSecond_agrees : peekSecond.Agrees copies fun _ => True :=
  fun _ _ _ htokens => .ok ⟨rfl, trivial⟩ htokens

/-- The same token is consumed under both paths. -/
theorem advance_agrees : advance.Agrees copies (Token.At copies.good) := by
  intro last tokens hlast htokens
  refine .ok ⟨rfl, headD_at hlast htokens⟩ fun token htoken => ?_
  exact htokens token (List.mem_of_mem_tail htoken)

/-- The same run of tokens is consumed under both paths. -/
theorem takeWhile_agrees (test : Token → Bool) :
    (takeWhile test).Agrees copies fun _ => True := by
  intro last tokens _ htokens
  refine .ok ⟨rfl, trivial⟩ fun token htoken => ?_
  exact htokens token ((List.dropWhile_suffix test).subset htoken)

/-- The same ends of lines are skipped under both paths. -/
theorem skipNewlines_agrees : skipNewlines.Agrees copies fun _ => True :=
  bind_agrees (takeWhile_agrees _) fun _ _ => pure_alike ⟨rfl, trivial⟩

/-- The same separators are skipped under both paths. -/
theorem skipSeparators_agrees : skipSeparators.Agrees copies fun _ => True :=
  bind_agrees (takeWhile_agrees _) fun _ _ => pure_alike ⟨rfl, trivial⟩

/-- A token that is not the expected one is refused at its own place. -/
theorem expect_agrees (kind : Kind) (wanted : Wanted) :
    (expect kind wanted).Agrees copies (Token.At copies.good) :=
  bind_agrees advance_agrees fun _ htoken => ite_alike (refuse_alike _ htoken)
    (ite_alike (pure_alike ⟨rfl, htoken⟩) (refuse_alike _ htoken))

private theorem below_alike {p q : Parser α} {same : α → α → Prop}
    (h : p.Alike copies same q) (size : Nat) :
    (p.below size).Alike copies same (q.below size) := by
  intro last tokens hlast htokens
  unfold below
  split
  · exact h last tokens hlast htokens
  · exact .stalled

/-- Recursive readings compare as one turn of them does, with `r` between their arguments. -/
theorem fix_alike {step : (β → Parser α) → β → Parser α} {r : β → β → Prop} {same : α → α → Prop}
    (hstep : ∀ again : β → Parser α,
      (∀ b b', r b b' → (again b).Alike copies same (again b')) →
      ∀ b b', r b b' → (step again b).Alike copies same (step again b'))
    {b b' : β} (h : r b b') : (fix step b).Alike copies same (fix step b') := by
  have hnest : ∀ fuel b b', r b b' →
      (nest step fuel b).Alike copies same (nest step fuel b') := by
    intro fuel
    induction fuel with
    | zero => exact fun _ _ _ _ _ _ _ => .stalled
    | succ fuel ih =>
      intro b b' hb last tokens
      exact hstep _ (fun b b' hb => below_alike (ih b b' hb) _) b b' hb last tokens
  exact fun last tokens => hnest _ b b' h last tokens

/-- A recursive reading carries its results over if one turn of it does. -/
theorem fix_follows {form : Parser α → Parser α} {carry : α → α}
    (hform : ∀ inner : Parser α, inner.Follows copies carry → (form inner).Follows copies carry) :
    (fix (fun again (_ : Unit) => form (again ())) ()).Follows copies carry :=
  fix_alike (r := fun _ _ => True)
    (fun again hagain _ _ _ => hform (again ()) (hagain () () trivial)) trivial

/-- Repetitions are carried over item by item. -/
theorem many_follows {item : Parser α} (carry : α → α) (h : item.Follows copies carry)
    (more : Token → Token → Bool) : (many more item).Follows copies (List.map carry) := by
  refine fix_alike (r := fun _ _ => True) (fun again hagain _ _ _ => ?_) trivial
  refine bind_agrees peek_agrees fun _ _ => bind_agrees peekSecond_agrees fun _ _ => ?_
  refine ite_alike (bind_follows h fun first => ?_) (pure_alike rfl)
  exact bind_follows (hagain () () trivial) fun rest => pure_alike rfl

/-- Loops are carried over from one result so far to the next. -/
theorem fold_follows {step : α → Parser α} {carry : α → α}
    (h : ∀ a, (step a).Alike copies (fun b b' => b' = carry b) (step (carry a)))
    (more : Token → Token → Bool) (a : α) :
    (fold more step a).Alike copies (fun b b' => b' = carry b) (fold more step (carry a)) := by
  refine fix_alike (r := fun b b' => b' = carry b) ?_ rfl
  rintro again hagain b _ rfl
  refine bind_agrees peek_agrees fun _ _ => bind_agrees peekSecond_agrees fun _ _ => ?_
  exact ite_alike (bind_alike (h b) hagain) (pure_alike rfl)

end Parser

end Slick
