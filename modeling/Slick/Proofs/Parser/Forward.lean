import Slick.Proofs.Parser.Steps

/-!
# Readings that move forward

A reading that starts at some tokens leaves an end of them, and one that is nested in another
reading has to leave less than it found. Behind the end of the source nothing can be consumed, so
this rests on every repetition being stopped there. Numerals come with negatives, and then the only
way to fail is to refuse the tokens. Main statements: `many_forward`, `fold_forward` and
`fix_forward`, by which the recursive readings move forward if the readings they repeat do.
-/

namespace Slick

/-- What is left of the tokens is an end of them, shorter by at least `least`, or the tokens are
refused. -/
inductive Outcome.Forward {α : Type} (least : Nat) (tokens : List Token) : Outcome α → Prop where
  | ok {a : α} {rest : List Token} :
    rest <:+ tokens → rest.length + least ≤ tokens.length → Forward least tokens (.ok a rest)
  | refused {flaw : Flaw} {rest : List Token} :
    rest <:+ tokens → Forward least tokens (.fail (.refused flaw) rest)

namespace Outcome.Forward

variable {α : Type} {least : Nat} {tokens middle : List Token} {outcome : Outcome α}

/-- A reading that starts further on ends further on. -/
theorem within (h : outcome.Forward least middle) (hsuffix : middle <:+ tokens) :
    outcome.Forward least tokens := by
  have hlength := hsuffix.length_le
  cases h with
  | ok hrest hless => exact .ok (hrest.trans hsuffix) (by omega)
  | refused hrest => exact .refused (hrest.trans hsuffix)

/-- What has consumed tokens has moved forward. -/
theorem weaken (h : outcome.Forward least tokens) : outcome.Forward 0 tokens := by
  cases h with
  | ok hrest hless => exact .ok hrest (by omega)
  | refused hrest => exact .refused hrest

/-- A reading that starts behind some tokens has consumed them. -/
theorem after (h : outcome.Forward 0 middle) (hsuffix : middle <:+ tokens)
    (hless : middle.length + least ≤ tokens.length) : outcome.Forward least tokens := by
  cases h with
  | ok hrest hshort => exact .ok (hrest.trans hsuffix) (by omega)
  | refused hrest => exact .refused (hrest.trans hsuffix)

/-- What moves forward behind a token has consumed the token. -/
theorem cons {token : Token} (h : outcome.Forward 0 tokens) :
    outcome.Forward 1 (token :: tokens) :=
  h.after (List.suffix_cons token tokens) (by simp)

end Outcome.Forward

/-- The numerals among the tokens have negatives. -/
def Negatable (tokens : List Token) : Prop :=
  ∀ token ∈ tokens, token.kind = .number → ∃ negative, token.value.negate = .ok negative

/-- Numerals that have negatives have them among fewer tokens. -/
theorem Negatable.of_suffix {tokens rest : List Token} (h : Negatable tokens)
    (hsuffix : rest <:+ tokens) : Negatable rest :=
  fun token htoken => h token (hsuffix.subset htoken)

namespace Parser

variable {α β : Type} {ctx : Context} {tokens : List Token} {least : Nat}

/-- A reading of nothing does not move back. -/
theorem pure_forward (a : α) (ctx : Context) (tokens : List Token) :
    ((pure a : Parser α) ctx tokens).Forward 0 tokens :=
  .ok (List.suffix_refl tokens) (Nat.le_refl _)

/-- A refusal counts as moving forward, however many tokens are asked for. -/
theorem refuse_forward (cause : Cause) (token : Token) (ctx : Context) (tokens : List Token) :
    ((refuse cause token : Parser α) ctx tokens).Forward least tokens :=
  .refused (List.suffix_refl tokens)

/-- A sequence consumes what its first part does. -/
theorem bind_forward {p : Parser α} {f : α → Parser β} (hp : (p ctx tokens).Forward least tokens)
    (hf : ∀ a rest, rest <:+ tokens → rest.length + least ≤ tokens.length →
      (f a ctx rest).Forward 0 rest) :
    ((p >>= f) ctx tokens).Forward least tokens := by
  rw [bind_apply]
  cases hfirst : p ctx tokens with
  | ok a rest =>
    rw [hfirst] at hp
    cases hp with
    | ok hrest hless => exact (hf a rest hrest hless).after hrest hless
  | fail failure rest =>
    rw [hfirst] at hp
    cases hp with
    | refused hrest => exact .refused hrest

/-- Making something of a result consumes nothing. -/
theorem bind_pure_forward {p : Parser α} {g : α → β}
    (hp : (p ctx tokens).Forward least tokens) :
    ((p >>= fun a => pure (g a)) ctx tokens).Forward least tokens :=
  bind_forward hp fun a rest _ _ => pure_forward (g a) ctx rest

/-- An expected token is consumed or refused. -/
theorem expect_forward {kind : Kind} {wanted : Wanted} (hlast : ctx.last.kind = .eof)
    (hkind : kind ≠ .eof) (tokens : List Token) :
    (expect kind wanted ctx tokens).Forward 1 tokens := by
  cases hresult : expect kind wanted ctx tokens with
  | ok token rest =>
    obtain ⟨rfl, -, -⟩ := eq_cons_of_expect hlast hkind hresult
    exact .ok (List.suffix_cons token rest) (by simp)
  | fail failure rest =>
    simp only [expect, advance_bind] at hresult
    split at hresult
    · cases hresult
      exact .refused (List.tail_suffix tokens)
    · split at hresult
      · cases hresult
      · cases hresult
        exact .refused (List.tail_suffix tokens)

/-- A reading that starts with a token other than the end consumes it. -/
theorem expect_bind_forward {kind : Kind} {wanted : Wanted} {f : Token → Parser β}
    (hlast : ctx.last.kind = .eof) (hkind : kind ≠ .eof)
    (hf : ∀ token rest, rest <:+ tokens → (f token ctx rest).Forward 0 rest) :
    ((expect kind wanted >>= f) ctx tokens).Forward 1 tokens :=
  bind_forward (expect_forward hlast hkind tokens) fun token rest hrest _ => hf token rest hrest

/-- Skipping tokens goes forward to where the rest of the sequence starts. -/
theorem takeWhile_bind_forward {test : Token → Bool} {f : List Token → Parser β}
    (hf : ∀ taken rest, rest <:+ tokens → (f taken ctx rest).Forward least rest) :
    ((takeWhile test >>= f) ctx tokens).Forward least tokens := by
  rw [takeWhile_bind]
  exact (hf _ _ (List.dropWhile_suffix test)).within (List.dropWhile_suffix test)

/-- To skip ends of lines first does not change whether a reading moves forward. -/
theorem skipNewlines_bind_forward {f : Unit → Parser β}
    (hf : ∀ rest, rest <:+ tokens → (f () ctx rest).Forward least rest) :
    ((skipNewlines >>= f) ctx tokens).Forward least tokens :=
  takeWhile_bind_forward (f := fun _ => f ()) fun _ => hf

/-- To skip separators first does not change whether a reading moves forward. -/
theorem skipSeparators_bind_forward {f : Unit → Parser β}
    (hf : ∀ rest, rest <:+ tokens → (f () ctx rest).Forward least rest) :
    ((skipSeparators >>= f) ctx tokens).Forward least tokens :=
  takeWhile_bind_forward (f := fun _ => f ()) fun _ => hf

/-- A repetition moves forward if its items do wherever the test lets them start. -/
theorem many_forward {more : Token → Token → Bool} {item : Parser α}
    (hitem : ∀ current, current <:+ tokens →
      more (current.headD ctx.last) (current.getD 1 ctx.last) = true →
      (item ctx current).Forward 1 current) :
    (many more item ctx tokens).Forward 0 tokens := by
  induction hlength : tokens.length using Nat.strongRecOn generalizing tokens with
  | ind size ih =>
    subst hlength
    rw [many_apply]
    split
    · next hmore =>
      refine (bind_forward (hitem tokens (List.suffix_refl _) hmore) ?_).weaken
      intro first rest hrest hless
      refine bind_forward ?_ fun others end_ _ _ => pure_forward _ _ _
      rw [below_of_lt (by omega)]
      exact ih rest.length (by omega)
        (fun current hcurrent => hitem current (hcurrent.trans hrest)) rfl
    · exact pure_forward [] ctx tokens

/-- A loop moves forward if its steps do wherever the test lets them start. -/
theorem fold_forward {more : Token → Token → Bool} {step : α → Parser α}
    (hstep : ∀ a current, current <:+ tokens →
      more (current.headD ctx.last) (current.getD 1 ctx.last) = true →
      (step a ctx current).Forward 1 current) (a : α) :
    (fold more step a ctx tokens).Forward 0 tokens := by
  induction hlength : tokens.length using Nat.strongRecOn generalizing tokens a with
  | ind size ih =>
    subst hlength
    rw [fold_apply]
    split
    · next hmore =>
      refine (bind_forward (hstep a tokens (List.suffix_refl _) hmore) ?_).weaken
      intro b rest hrest hless
      rw [below_of_lt (by omega)]
      exact ih rest.length (by omega)
        (fun b current hcurrent => hstep b current (hcurrent.trans hrest)) b rfl
    · exact pure_forward a ctx tokens

/-- A reading that moves forward wherever it starts in the tokens. -/
structure Throughout (ctx : Context) (inner : Parser α) (tokens : List Token) : Prop where
  last_eof : ctx.last.kind = .eof
  negatable : Negatable tokens
  forward : ∀ current, current <:+ tokens → (inner ctx current).Forward 1 current

/-- A reading that moves forward wherever it starts behind the first of the tokens. This is what
the readings that are nested in another one are known to do. -/
structure Ahead (ctx : Context) (inner : Parser α) (tokens : List Token) : Prop where
  last_eof : ctx.last.kind = .eof
  negatable : Negatable tokens
  forward : ∀ current, current <:+ tokens → current.length < tokens.length →
    (inner ctx current).Forward 1 current

variable {inner : Parser α}

/-- What moves forward throughout some tokens does so throughout fewer. -/
theorem Throughout.of_suffix {rest : List Token} (h : Throughout ctx inner tokens)
    (hsuffix : rest <:+ tokens) : Throughout ctx inner rest :=
  ⟨h.last_eof, h.negatable.of_suffix hsuffix,
    fun current hcurrent => h.forward current (hcurrent.trans hsuffix)⟩

/-- The reading where the tokens start. -/
theorem Throughout.here (h : Throughout ctx inner tokens) :
    (inner ctx tokens).Forward 1 tokens :=
  h.forward tokens (List.suffix_refl tokens)

/-- What moves forward throughout the tokens does so behind the first of them. -/
theorem Throughout.ahead (h : Throughout ctx inner tokens) : Ahead ctx inner tokens :=
  ⟨h.last_eof, h.negatable, fun current hcurrent _ => h.forward current hcurrent⟩

/-- What moves forward ahead of some tokens does so ahead of fewer. -/
theorem Ahead.of_suffix {rest : List Token} (h : Ahead ctx inner tokens)
    (hsuffix : rest <:+ tokens) : Ahead ctx inner rest := by
  refine ⟨h.last_eof, h.negatable.of_suffix hsuffix, ?_⟩
  intro current hcurrent hshort
  have hlength := hsuffix.length_le
  exact h.forward current (hcurrent.trans hsuffix) (by omega)

/-- Ahead of a token means throughout the tokens behind it. -/
theorem Ahead.behind {token : Token} (h : Ahead ctx inner (token :: tokens)) :
    Throughout ctx inner tokens := by
  have hsuffix : tokens <:+ token :: tokens := List.suffix_cons token tokens
  refine ⟨h.last_eof, h.negatable.of_suffix hsuffix, ?_⟩
  intro current hcurrent
  have hlength := hcurrent.length_le
  refine h.forward current (hcurrent.trans hsuffix) ?_
  rw [List.length_cons]
  omega

/-- A recursive reading moves forward if one turn of it does. The guard against nested readings
that consume nothing is never met. -/
theorem fix_forward {form : Parser α → Parser α} (hlast : ctx.last.kind = .eof)
    (hform : ∀ inner tokens, Ahead ctx inner tokens → (form inner ctx tokens).Forward 1 tokens)
    (hnegatable : Negatable tokens) :
    (fix (fun again (_ : Unit) => form (again ())) () ctx tokens).Forward 1 tokens := by
  induction hlength : tokens.length using Nat.strongRecOn generalizing tokens with
  | ind size ih =>
    subst hlength
    rw [fix_apply]
    refine hform _ tokens ⟨hlast, hnegatable, ?_⟩
    intro current hcurrent hshort
    beta_reduce
    rw [below_of_lt hshort]
    exact ih current.length hshort (hnegatable.of_suffix hcurrent) rfl

end Parser

end Slick
