import Slick.Proofs.Expr.Shape
import Slick.Proofs.Grammar.Brackets

/-!
# Parts of spelled expressions

Every expression that occurs in a spelled one is spelled itself, by tokens that stand together
among the others. So what the tokens of a form must hold is held by the tokens around it: a choice
needs the start of a block, and the bracketed forms stand between two brackets of matching kinds.
Main statements: `Spells.part` and `Spells.indent_in_brackets`.
-/

namespace Slick

/-- The second expression is the first or occurs in it. -/
inductive Expr.Part : Expr → Expr → Prop where
  | refl {e : Expr} : Part e e
  | child {e child part : Expr} : child ∈ e.children → Part child part → Part e part

namespace Grammar

variable {path : Option String} {apart : List Token → List Token → Prop}

/-- The outermost expressions of a phrase. -/
def Phrase.trees : Phrase → List Expr
  | .block e | .expression e | .level _ e | .call e | .access e | .primary e => [e]
  | .arguments es | .elements es => es
  | .fields entries => entries.map Prod.snd
  | .arm a => a.parts
  | .arms as => as.flatMap Arm.parts

/-- The expression is spelled somewhere among the tokens. -/
def SpelledIn (path : Option String) (apart : List Token → List Token → Prop) (tokens : List Token)
    (e : Expr) : Prop :=
  ∃ used, used <:+: tokens ∧ Spells path apart used (.expression e)

/-- What is spelled in some tokens is spelled in all tokens around them. -/
theorem SpelledIn.mono {tokens more : List Token} {e : Expr} (h : SpelledIn path apart tokens e)
    (hmore : tokens <:+: more) : SpelledIn path apart more e := by
  obtain ⟨used, hused, hspells⟩ := h
  exact ⟨used, hused.trans hmore, hspells⟩

/-- The expression and its children are spelled somewhere among the tokens. -/
def Holds (path : Option String) (apart : List Token → List Token → Prop) (tokens : List Token)
    (e : Expr) : Prop :=
  SpelledIn path apart tokens e ∧ ∀ child ∈ e.children, SpelledIn path apart tokens child

/-- What some tokens hold all tokens around them hold. -/
theorem Holds.mono {tokens more : List Token} {e : Expr} (h : Holds path apart tokens e)
    (hmore : tokens <:+: more) : Holds path apart more e :=
  ⟨h.1.mono hmore, fun child hchild => (h.2 child hchild).mono hmore⟩

/-- A phrase of any rank is an expression. -/
theorem Spells.holds {tokens : List Token} {e : Expr} (rank : Nat)
    (h : Spells path apart tokens (phraseAt rank e))
    (hchildren : ∀ child ∈ e.children, SpelledIn path apart tokens child) :
    Holds path apart tokens e :=
  ⟨⟨tokens, List.infix_rfl, h.of_rank_le (Nat.zero_le rank)⟩, hchildren⟩

private theorem Level.trees_operand (level : Level) (e : Expr) : (level.operand e).trees = [e] := by
  cases level <;> rfl

private theorem Level.trees_left (level : Level) (e : Expr) : (level.left e).trees = [e] := by
  cases level <;> rfl

/-- The expressions of a phrase are spelled among its tokens, and so are their children. -/
theorem Spells.holds_trees {tokens : List Token} {phrase : Phrase}
    (h : Spells path apart tokens phrase) : ∀ e ∈ phrase.trees, Holds path apart tokens e := by
  induction h with
  | inline _ ih | operators _ ih | callee _ ih | object _ ih => exact ih
  | operand _ ih =>
    rw [Level.trees_operand] at ih
    exact ih
  | @indented lines inner ends indent dedent e _ _ _ _ _ _ ih =>
    intro e' he
    exact (ih e' he).mono ⟨lines ++ [indent], ends ++ [dedent], by simp⟩
  | @function start arrow names body e hstart hnames harrow hbody ih =>
    have hwhole := Spells.function hstart hnames harrow hbody
    simp only [Phrase.trees, List.forall_mem_singleton] at ih ⊢
    refine hwhole.holds 0 ?_
    simp only [Expr.children, List.forall_mem_singleton]
    exact ih.1.mono ⟨start :: (names ++ [arrow]), [], by simp⟩
  | @conditional start thenWord elseWord condition thenPart lines elsePart c t e hif hc hthen ht
      hlines helse he ihc iht ihe =>
    have hwhole := Spells.conditional hif hc hthen ht hlines helse he
    simp only [Phrase.trees, List.forall_mem_singleton] at ihc iht ihe ⊢
    refine hwhole.holds 0 ?_
    rw [Expr.children, List.forall_mem_cons, List.forall_mem_cons, List.forall_mem_singleton]
    refine ⟨ihc.1.mono ?_, iht.1.mono ?_, ihe.1.mono ?_⟩
    · exact ⟨[start], thenWord :: (thenPart ++ (lines ++ elseWord :: elsePart)), by simp⟩
    · exact ⟨start :: (condition ++ [thenWord]), lines ++ elseWord :: elsePart, by simp⟩
    · exact ⟨start :: (condition ++ thenWord :: (thenPart ++ (lines ++ [elseWord]))), [], by simp⟩
  | @select start ofWord indent dedent scrutinee lines armTokens s arms hcase hs hof hne hlines
      hindent harms harmsNe hdedent ihs iharms =>
    have hwhole := Spells.select hcase hs hof hne hlines hindent harms harmsNe hdedent
    simp only [Phrase.trees, List.forall_mem_singleton] at ihs iharms ⊢
    refine hwhole.holds 0 ?_
    simp only [Expr.children, List.forall_mem_cons]
    refine ⟨ihs.1.mono ?_, fun e he => (iharms e he).1.mono ?_⟩
    · exact ⟨[start], ofWord :: (lines ++ indent :: (armTokens ++ [dedent])), by simp⟩
    · exact ⟨start :: (scrutinee ++ ofWord :: (lines ++ [indent])), [dedent], by simp⟩
  | @operation level left right operator a b ha hoperator hb iha ihb =>
    have hwhole := Spells.operation ha hoperator hb
    rw [Level.trees_left, List.forall_mem_singleton] at iha
    rw [Level.trees_operand, List.forall_mem_singleton] at ihb
    rw [← Level.phraseAt_rank] at hwhole
    simp only [Phrase.trees, List.forall_mem_singleton]
    refine hwhole.holds level.rank ?_
    rw [Expr.children, List.forall_mem_cons, List.forall_mem_singleton]
    refine ⟨iha.1.mono ?_, ihb.1.mono ?_⟩
    · exact ⟨[], operator :: right, by simp⟩
    · exact ⟨left ++ [operator], [], by simp⟩
  | @call start callee rest e arguments he hstart harguments hne ihe iharguments =>
    have hwhole := Spells.call he hstart harguments hne
    simp only [Phrase.trees, List.forall_mem_singleton] at ihe iharguments ⊢
    refine hwhole.holds 6 ?_
    simp only [Expr.children, List.forall_mem_cons]
    refine ⟨ihe.1.mono ?_, fun argument hargument => (iharguments argument hargument).1.mono ?_⟩
    · exact ⟨[], rest, by simp⟩
    · exact ⟨callee, [], by simp⟩
  | @get start dot name object e he hstart hdot hname ih =>
    have hwhole := Spells.get he hstart hdot hname
    simp only [Phrase.trees, List.forall_mem_singleton] at ih ⊢
    refine hwhole.holds 7 ?_
    simp only [Expr.children, List.forall_mem_singleton]
    exact ih.1.mono ⟨[], [dot, name], by simp⟩
  | literal htoken =>
    rw [Phrase.trees, List.forall_mem_singleton]
    exact Spells.holds 8 (.literal htoken) (by simp [Expr.children])
  | negative hminus hnumber hvalue =>
    rw [Phrase.trees, List.forall_mem_singleton]
    exact Spells.holds 8 (.negative hminus hnumber hvalue) (by simp [Expr.children])
  | reference hname =>
    rw [Phrase.trees, List.forall_mem_singleton]
    exact Spells.holds 8 (.reference hname) (by simp [Expr.children])
  | @grouping opener closer before inner behind e hopener hbefore he hbehind hcloser ih =>
    have hwhole := Spells.grouping hopener hbefore he hbehind hcloser
    simp only [Phrase.trees, List.forall_mem_singleton] at ih ⊢
    refine hwhole.holds 8 ?_
    simp only [Expr.children, List.forall_mem_singleton]
    exact ih.1.mono ⟨opener :: before, behind ++ [closer], by simp⟩
  | @list opener closer separators items elements hopener hseparators hitems hcloser ih =>
    have hwhole := Spells.list hopener hseparators hitems hcloser
    simp only [Phrase.trees, List.forall_mem_singleton] at ih ⊢
    refine hwhole.holds 8 fun e he => (ih e he).1.mono ?_
    exact ⟨opener :: separators, [closer], by simp⟩
  | @record opener closer lines items fields hopener hlines hitems hkeys hcloser ih =>
    have hwhole := Spells.record hopener hlines hitems hkeys hcloser
    simp only [Phrase.trees, List.forall_mem_singleton] at ih ⊢
    refine hwhole.holds 8 fun e he => (ih e he).1.mono ?_
    exact ⟨opener :: lines, [closer], by simp⟩
  | @update opener pipe closer lines target separators items e fields hopener hlines he hpipe
      hseparators hitems hkeys hcloser ihe ihitems =>
    have hwhole := Spells.update hopener hlines he hpipe hseparators hitems hkeys hcloser
    simp only [Phrase.trees, List.forall_mem_singleton] at ihe ihitems ⊢
    refine hwhole.holds 8 ?_
    simp only [Expr.children, List.forall_mem_cons]
    refine ⟨ihe.1.mono ?_, fun e he => (ihitems e he).1.mono ?_⟩
    · exact ⟨opener :: lines, pipe :: (separators ++ (items ++ [closer])), by simp⟩
    · exact ⟨opener :: (lines ++ (target ++ pipe :: separators)), [closer], by simp⟩
  | noArguments | noElements | noFields | noArms => simp [Phrase.trees]
  | @argument first rest e es _ _ _ ihfirst ihrest =>
    rw [Phrase.trees, List.forall_mem_singleton] at ihfirst
    rw [Phrase.trees, List.forall_mem_cons]
    refine ⟨ihfirst.mono ?_, fun e he => (ihrest e he).mono ?_⟩
    · exact ⟨[], rest, by simp⟩
    · exact ⟨first, [], by simp⟩
  | @element first separators rest e es _ _ _ _ ihfirst ihrest =>
    rw [Phrase.trees, List.forall_mem_singleton] at ihfirst
    rw [Phrase.trees, List.forall_mem_cons]
    refine ⟨ihfirst.mono ?_, fun e he => (ihrest e he).mono ?_⟩
    · exact ⟨[], separators ++ rest, by simp⟩
    · exact ⟨first ++ separators, [], by simp⟩
  | @field key colon first separators rest e fields _ _ _ _ _ _ ihfirst ihrest =>
    rw [Phrase.trees, List.forall_mem_singleton] at ihfirst
    rw [Phrase.trees, List.map_cons, List.forall_mem_cons]
    refine ⟨ihfirst.mono ?_, fun e he => (ihrest e he).mono ?_⟩
    · exact ⟨[key, colon], separators ++ rest, by simp⟩
    · exact ⟨key :: colon :: (first ++ separators), [], by simp⟩
  | @tag subtype arrow names result e _ _ _ _ ih =>
    simp only [Phrase.trees, Arm.parts, List.forall_mem_singleton] at ih ⊢
    exact ih.mono ⟨subtype :: (names ++ [arrow]), [], by simp⟩
  | @value start arrow pattern result p e _ _ _ _ _ ihpattern ihresult =>
    simp only [Phrase.trees, List.forall_mem_singleton] at ihpattern ihresult
    rw [Phrase.trees, Arm.parts, List.forall_mem_cons, List.forall_mem_singleton]
    refine ⟨ihpattern.mono ?_, ihresult.mono ?_⟩
    · exact ⟨[], arrow :: result, by simp⟩
    · exact ⟨pattern ++ [arrow], [], by simp⟩
  | @nextArm first lines rest arm arms _ _ _ _ ihfirst ihrest =>
    simp only [Phrase.trees, List.flatMap_cons, List.forall_mem_append] at ihfirst ihrest ⊢
    refine ⟨fun e he => (ihfirst e he).mono ?_, fun e he => (ihrest e he).mono ?_⟩
    · exact ⟨[], lines ++ rest, by simp⟩
    · exact ⟨first ++ lines, [], by simp⟩

/-- **Parts are spelled.** Every part of an expression of a phrase is spelled among the tokens of
the phrase. -/
theorem Spells.part {tokens : List Token} {phrase : Phrase} {e part : Expr}
    (h : Spells path apart tokens phrase) (he : e ∈ phrase.trees) (hpart : e.Part part) :
    SpelledIn path apart tokens part := by
  induction hpart generalizing tokens phrase with
  | refl => exact (h.holds_trees _ he).1
  | child hchild _ ih =>
    obtain ⟨used, hused, hspells⟩ := (h.holds_trees _ he).2 _ hchild
    exact (ih hspells (List.mem_singleton_self _)).mono hused

/-- An operation binds as tightly as its operator. -/
theorem Level.rank_operation {level : Level} {operator : Token}
    (h : level.isOperator operator = true) (a b : Expr) (location : Location) :
    (Expr.binary a operator b location).rank = level.rank := by
  rw [Expr.rank, operatorLevel?_eq_some h]
  rfl

/-- An expression whose rank is not that of its place is spelled as a phrase of the next tighter
category: only there it can have its outermost operation. -/
theorem Spells.tighten {tokens : List Token} {e : Expr} {rank : Nat}
    (h : Spells path apart tokens (phraseAt rank e)) (hne : e.rank ≠ rank) :
    Spells path apart tokens (phraseAt (rank + 1) e) := by
  have hlevel : ∀ level : Level, Spells path apart tokens (.level level e) → e.rank ≠ level.rank →
      Spells path apart tokens (level.operand e) := by
    intro level hspells hrank
    cases hspells with
    | operand hoperand => exact hoperand
    | operation _ hoperator _ => exact absurd (Level.rank_operation hoperator _ _ _) hrank
  match rank with
  | 0 =>
    cases h with
    | operators hoperators => exact hoperators
    | function | conditional | select => exact absurd rfl hne
  | 1 => exact hlevel .disjunction h hne
  | 2 => exact hlevel .conjunction h hne
  | 3 => exact hlevel .comparison h hne
  | 4 => exact hlevel .sum h hne
  | 5 => exact hlevel .product h hne
  | 6 =>
    cases h with
    | callee hcallee => exact hcallee
    | call => exact absurd rfl hne
  | 7 =>
    cases h with
    | object hobject => exact hobject
    | get => exact absurd rfl hne
  | _ + 8 => exact h

private theorem Spells.tighten_to {tokens : List Token} {e : Expr} {rank rank' : Nat}
    (hle : rank ≤ rank')
    (h : Spells path apart tokens (phraseAt rank e))
    (hne : ∀ between, rank ≤ between → between < rank' → e.rank ≠ between) :
    Spells path apart tokens (phraseAt rank' e) := by
  induction hle with
  | refl => exact h
  | @step rank' hle ih =>
    have htight := ih fun between hlow hhigh => hne between hlow (by omega)
    exact htight.tighten (hne rank' hle (Nat.lt_succ_self rank'))

end Grammar

/-- Whether the expression is a choice. -/
def Expr.isChoice : Expr → Bool
  | select .. => true
  | _ => false

/-- Whether the expression is written in brackets of its own. -/
def Expr.isBracketed : Expr → Bool
  | grouping .. | list .. | record .. | update .. => true
  | _ => false

namespace Grammar

variable {path : Option String} {apart : List Token → List Token → Prop}

/-- A choice has its arms in a block. -/
theorem Spells.indent_of_choice {tokens : List Token} {e : Expr}
    (h : Spells path apart tokens (.expression e)) (hchoice : e.isChoice = true) :
    ∃ token ∈ tokens, token.kind = .indent := by
  cases h with
  | function | conditional => cases hchoice
  | @select _ _ indent _ _ _ _ _ _ _ _ _ _ _ hindent => exact ⟨indent, by simp, hindent⟩
  | operators hoperators =>
    -- A choice has no operation outside, and it is not a primary expression.
    have hzero : e.rank = 0 := by cases e <;> first | rfl | cases hchoice
    have hprimary : Spells path apart tokens (.primary e) :=
      Spells.tighten_to (show 1 ≤ 8 by decide) hoperators fun between hlow _ => by omega
    cases hprimary <;> cases hchoice

/-- A bracketed form stands between two brackets of matching kinds. -/
theorem Spells.enclosed {tokens : List Token} {e : Expr}
    (h : Spells path apart tokens (.expression e)) (hbracketed : e.isBracketed = true) :
    Enclosed tokens := by
  have hrank : e.rank = 8 := by cases e <;> first | rfl | cases hbracketed
  have hprimary : Spells path apart tokens (.primary e) :=
    Spells.tighten_to (Nat.zero_le 8) h fun between _ hhigh => by omega
  cases hprimary with
  | literal | negative | reference => cases hbracketed
  | grouping hopener hbefore he hbehind hcloser =>
    have hinner := hbefore.balanced.append (he.balanced.append hbehind.balanced)
    simpa using hinner.enclosed hopener hcloser rfl
  | list hopener hseparators hitems hcloser =>
    have hinner := hseparators.balanced.append hitems.balanced
    simpa using hinner.enclosed hopener hcloser rfl
  | record hopener hlines hitems _ hcloser =>
    have hinner := hlines.balanced.append hitems.balanced
    simpa using hinner.enclosed hopener hcloser rfl
  | update hopener hlines he hpipe hseparators hitems _ hcloser =>
    have hfields := (hseparators.balanced.append hitems.balanced).cons hpipe rfl
    have hinner := hlines.balanced.append (he.balanced.append hfields)
    simpa using hinner.enclosed hopener hcloser rfl

/-- A choice in brackets puts the start of a block between two matching brackets. -/
theorem Spells.indent_in_brackets {tokens : List Token} {phrase : Phrase} {e outer choice : Expr}
    (h : Spells path apart tokens phrase) (he : e ∈ phrase.trees) (houter : e.Part outer)
    (hbracketed : outer.isBracketed = true) (hpart : outer.Part choice)
    (hchoice : choice.isChoice = true) :
    ∃ before opener inner closer after, tokens = before ++ opener :: (inner ++ closer :: after) ∧
      opener.kind.closer? = some closer.kind ∧ Balanced inner ∧
      ∃ token ∈ inner, token.kind = .indent := by
  obtain ⟨used, ⟨before, after, htokens⟩, hspells⟩ := h.part he houter
  obtain ⟨opener, inner, closer, rfl, hkinds, hinner⟩ := hspells.enclosed hbracketed
  obtain ⟨choiceTokens, hused, hchoiceSpells⟩ := hspells.part (List.mem_singleton_self _) hpart
  obtain ⟨token, htoken, hindent⟩ := hchoiceSpells.indent_of_choice hchoice
  refine ⟨before, opener, inner, closer, after, by simp [← htokens], hkinds, hinner, token, ?_,
    hindent⟩
  -- The start of the block is neither of the two brackets.
  have hmem : token ∈ opener :: (inner ++ [closer]) := hused.subset htoken
  obtain ⟨hopener, -, -, hcloser⟩ := Kind.isOpener_of_closer? hkinds
  simp only [List.mem_cons, List.mem_append, List.not_mem_nil, or_false] at hmem
  rcases hmem with rfl | hinside | rfl
  · rw [hindent] at hopener
    cases hopener
  · exact hinside
  · rw [hindent] at hcloser
    cases hcloser

/-- The expression of a declaration is spelled among the tokens of the program. -/
theorem SpellsProgram.binding {tokens : List Token} {stmts : List Stmt} {name : Token} {e : Expr}
    {location : Location} (h : SpellsProgram path apart tokens stmts)
    (hbinding : .binding name e location ∈ stmts) :
    ∃ body, body <:+: tokens ∧ Spells path apart body (.block e) := by
  obtain ⟨lines, rest, rfl, -, hrest⟩ := h
  have hinside : ∃ body, body <:+: rest ∧ Spells path apart body (.block e) := by
    clear lines
    induction hrest with
    | nil => cases hbinding
    | @cons first lines rest stmt stmts hfirst _ _ _ ih =>
      rcases List.mem_cons.mp hbinding with rfl | hmore
      · cases hfirst with
        | @binding _ colon body _ _ _ hbody =>
          exact ⟨body, ⟨[name, colon], lines ++ rest, by simp⟩, hbody⟩
      · obtain ⟨body, hbody, hspells⟩ := ih hmore
        exact ⟨body, hbody.trans ⟨first ++ lines, [], by simp⟩, hspells⟩
  obtain ⟨body, hbody, hspells⟩ := hinside
  exact ⟨body, hbody.trans (List.suffix_append lines rest).isInfix, hspells⟩

end Grammar

end Slick
