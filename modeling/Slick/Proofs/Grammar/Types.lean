import Slick.Proofs.Grammar.Tokens
import Slick.Proofs.Parser.Steps
import Slick.TypeExpr.Parser

/-!
# The grammar of types

A type is a name with arguments, or a type in parentheses. An argument is a name or a type in
parentheses. The reader of types accepts exactly what the grammar spells: `parser_type_reads` for
one direction, `SpellsType.read` for the other. The second needs that the next token does not
start another argument.
-/

namespace Slick.Grammar

open Slick.Parser

variable {ctx : Context}

/-- A category of the grammar of types with the tree that a piece of source has in it. -/
inductive TypePhrase where
  | type (type : TypeExpr)
  | arguments (types : List TypeExpr)

/-- Names of types and of type variables. -/
def IsTypeName (token : Token) : Prop := token.kind = .uident ∨ token.kind = .ident

/-- The tokens spell the type or the arguments. -/
inductive SpellsType : List Token → TypePhrase → Prop where
  | named {name : Token} {rest : List Token} {types : List TypeExpr} :
    IsTypeName name → SpellsType rest (.arguments types) →
    SpellsType (name :: rest) (.type (.mk name.text types))
  | parenthesised {opener closer : Token} {inner : List Token} {type : TypeExpr} :
    opener.kind = .lparen → SpellsType inner (.type type) → closer.kind = .rparen →
    SpellsType (opener :: (inner ++ [closer])) (.type type)
  | noArguments : SpellsType [] (.arguments [])
  | nameArgument {name : Token} {rest : List Token} {types : List TypeExpr} :
    IsTypeName name → SpellsType rest (.arguments types) →
    SpellsType (name :: rest) (.arguments (.mk name.text [] :: types))
  | typeArgument {opener closer : Token} {inner rest : List Token} {type : TypeExpr}
      {types : List TypeExpr} :
    opener.kind = .lparen → SpellsType inner (.type type) → closer.kind = .rparen →
    SpellsType rest (.arguments types) →
    SpellsType (opener :: (inner ++ closer :: rest)) (.arguments (type :: types))

/-- Whatever the reading accepts spells the type it returns. -/
def ReadsType (ctx : Context) (p : Parser TypeExpr) : Prop :=
  ∀ tokens type rest, p ctx tokens = .ok type rest →
    ∃ used, tokens = used ++ rest ∧ SpellsType used (.type type)

private theorem typeArguments_read (hlast : ctx.last.kind = .eof) {type : Parser TypeExpr}
    (htype : ReadsType ctx type) {tokens rest : List Token} {types : List TypeExpr}
    (h : many (fun token _ => token.kind.startsType) (TypeExpr.argument type) ctx tokens =
      .ok types rest) :
    ∃ used, tokens = used ++ rest ∧ SpellsType used (.arguments types) := by
  refine many_induct (P := fun tokens types rest => ∃ used, tokens = used ++ rest ∧
    SpellsType used (.arguments types)) ?_ ?_ h
  · intro tokens _
    exact ⟨[], rfl, .noArguments⟩
  · intro tokens first middle others rest htest hitem ih
    obtain ⟨usedRest, rfl, hrest⟩ := ih
    simp only [TypeExpr.argument, peek_bind] at hitem
    split at hitem
    · next hparen =>
      obtain ⟨used, rfl, hfirst⟩ := htype _ _ _ hitem
      cases hfirst with
      | named hname =>
        rcases hname with hname | hname <;> rw [List.cons_append, List.headD_cons, hname] at hparen
          <;> cases hparen
      | parenthesised hopener hinner hcloser =>
        exact ⟨_, by simp, .typeArgument hopener hinner hcloser hrest⟩
    · next hparen =>
      have hname : IsTypeName (tokens.headD ctx.last) := by
        unfold IsTypeName
        cases hkind : (tokens.headD ctx.last).kind <;> simp_all [Kind.startsType]
      have hkind : (tokens.headD ctx.last).kind ≠ .eof := by
        rcases hname with hname | hname <;> rw [hname] <;> decide
      have hcons := eq_cons_of_kind_ne_eof hlast hkind
      simp only [advance_bind, pure_apply, Outcome.ok.injEq] at hitem
      obtain ⟨rfl, htail⟩ := hitem
      refine ⟨tokens.headD ctx.last :: usedRest, ?_, .nameArgument hname hrest⟩
      rw [List.cons_append, ← htail]
      exact hcons

private theorem typeForm_reads (hlast : ctx.last.kind = .eof) {type : Parser TypeExpr}
    (htype : ReadsType ctx type) : ReadsType ctx (TypeExpr.form type) := by
  intro tokens result rest h
  simp only [TypeExpr.form, peek_bind] at h
  split at h
  · next hparen =>
    have hcons := eq_cons_of_kind_ne_eof hlast (by rw [hparen]; decide)
    rw [advance_bind] at h
    obtain ⟨inner, middle, hinner, hrest⟩ := bind_eq_ok_iff.mp h
    obtain ⟨closer, rest', hcloser, hrest⟩ := bind_eq_ok_iff.mp hrest
    cases hrest
    obtain ⟨used, htail, hspells⟩ := htype _ _ _ hinner
    obtain ⟨rfl, hcloserKind, -⟩ := eq_cons_of_expect hlast (by decide) hcloser
    refine ⟨_, ?_, .parenthesised hparen hspells hcloserKind⟩
    conv_lhs => rw [hcons, htail]
    simp
  · rw [advance_bind] at h
    split at h
    · next hname =>
      have hkind : (tokens.headD ctx.last).kind ≠ .eof := by
        rcases hname with hname | hname <;> rw [hname] <;> decide
      have hcons := eq_cons_of_kind_ne_eof hlast hkind
      obtain ⟨types, rest', htypes, hrest⟩ := bind_eq_ok_iff.mp h
      cases hrest
      obtain ⟨used, htail, hspells⟩ := typeArguments_read hlast htype htypes
      refine ⟨tokens.headD ctx.last :: used, ?_, .named hname hspells⟩
      rw [List.cons_append, ← htail]
      exact hcons
    · exact absurd h (refuse_ne_ok _ _ _)

/-- Whatever the reader of types accepts is spelled by the tokens it consumes. -/
theorem parser_type_reads (hlast : ctx.last.kind = .eof) : ReadsType ctx TypeExpr.parser := by
  intro tokens type rest h
  refine fix_induct (P := fun _ tokens type rest => ∃ used, tokens = used ++ rest ∧
    SpellsType used (.type type)) ?_ h
  intro again hagain b tokens type rest hform
  exact typeForm_reads hlast (hagain ()) tokens type rest hform

/-- The reader of types is its own form, with nested types restricted to shorter lists. -/
theorem typeParser_apply (ctx : Context) (tokens : List Token) :
    TypeExpr.parser ctx tokens =
      TypeExpr.form (TypeExpr.parser.below tokens.length) ctx tokens := by
  rw [TypeExpr.parser, fix_apply]

/-- A type in parentheses is read if the type inside is. -/
theorem typeParser_parenthesised {opener closer : Token} {inner : List Token} {type : TypeExpr}
    (hopener : opener.kind = .lparen) (hcloser : closer.kind = .rparen) (rest : List Token)
    (hinner : TypeExpr.parser ctx (inner ++ closer :: rest) = .ok type (closer :: rest)) :
    TypeExpr.parser ctx (opener :: (inner ++ closer :: rest)) = .ok type rest := by
  rw [typeParser_apply]
  simp only [TypeExpr.form, peek_bind_cons, if_pos hopener, advance_bind_cons]
  rw [bind_of_ok ((below_of_lt (by simp)).trans hinner),
    bind_of_ok (expect_any_cons hcloser ctx rest)]
  rfl

/-- What the reader of types makes of a phrase in front of a token that starts no argument. -/
def TypePhrase.Read (ctx : Context) (tokens : List Token) : TypePhrase → Prop
  | .type t => ∀ rest, (rest.headD ctx.last).kind.startsType = false →
    TypeExpr.parser ctx (tokens ++ rest) = .ok t rest
  | .arguments types => ∀ rest size, (rest.headD ctx.last).kind.startsType = false →
    (tokens ++ rest).length < size →
    many (fun token _ => token.kind.startsType)
      (TypeExpr.argument (TypeExpr.parser.below size)) ctx (tokens ++ rest) = .ok types rest

/-- Every spelled type is read. -/
theorem SpellsType.read {tokens : List Token} {phrase : TypePhrase} (h : SpellsType tokens phrase)
    (ctx : Context) : phrase.Read ctx tokens := by
  induction h with
  | @named name tokens types hname _ ih =>
    intro rest hstop
    have hparen : name.kind ≠ .lparen := by
      rcases hname with hname | hname <;> rw [hname] <;> decide
    rw [typeParser_apply, List.cons_append]
    simp only [TypeExpr.form, peek_bind_cons, if_neg hparen, advance_bind_cons]
    rw [if_pos (show name.kind = .uident ∨ name.kind = .ident from hname)]
    rw [bind_of_ok (ih rest _ hstop (by simp))]
    rfl
  | parenthesised hopener _ hcloser ih =>
    intro rest _
    simp only [List.cons_append, List.append_assoc, List.nil_append]
    refine typeParser_parenthesised hopener hcloser rest (ih _ ?_)
    simp [hcloser, Kind.startsType]
  | noArguments =>
    intro rest size hstop _
    exact many_of_stop hstop
  | @nameArgument name tokens types hname _ ih =>
    intro rest size hstop hsize
    simp only [List.cons_append, List.length_cons] at hsize
    refine many_of_more ?_ ?_ (by simp) (ih rest size hstop (by omega))
    · rcases hname with hname | hname <;> simp [hname, Kind.startsType]
    · have hparen : name.kind ≠ .lparen := by
        rcases hname with hname | hname <;> rw [hname] <;> decide
      simp only [TypeExpr.argument, List.cons_append, peek_bind_cons, if_neg hparen,
        advance_bind_cons]
      rfl
  | @typeArgument opener closer inner tokens type types hopener _ hcloser _ ihinner ihrest =>
    intro rest size hstop hsize
    simp only [List.cons_append, List.append_assoc, List.length_cons, List.length_append] at hsize
    simp only [List.cons_append, List.append_assoc]
    have hread : TypeExpr.parser ctx (opener :: (inner ++ closer :: (tokens ++ rest))) =
        .ok type (tokens ++ rest) :=
      typeParser_parenthesised hopener hcloser _ (ihinner _ (by simp [hcloser, Kind.startsType]))
    have hargument : TypeExpr.argument (TypeExpr.parser.below size) ctx
        (opener :: (inner ++ closer :: (tokens ++ rest))) = .ok type (tokens ++ rest) := by
      simp only [TypeExpr.argument, peek_bind_cons, if_pos hopener]
      rw [below_of_lt (by simp; omega), hread]
    refine many_of_more ?_ hargument ?_ (ihrest rest size hstop ?_)
    · simp [hopener, Kind.startsType]
    · simp only [List.length_cons, List.length_append]
      omega
    · simp only [List.length_append]
      omega

end Slick.Grammar
