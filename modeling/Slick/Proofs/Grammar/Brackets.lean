import Slick.Proofs.Grammar.Programs
import Slick.Proofs.Layout.Marks

/-!
# Brackets of a program

What the grammar spells has properly nested brackets of matching kinds. The layout counts brackets
without looking at their kinds and lets closing brackets without an opening one pass. On nested
brackets the count is exact: it never falls below where it started, and ends there.
-/

namespace Slick

/-- The kind of bracket that closes an opening one. -/
def Kind.closer? : Kind → Option Kind
  | lparen => some rparen
  | lbracket => some rbracket
  | lbrace => some rbrace
  | _ => none

/-- Kinds of tokens that open or close a bracket. -/
def Kind.isBracket (kind : Kind) : Bool := kind.isOpener || kind.isCloser

/-- A kind with a closing partner opens a bracket, and its partner closes one. -/
theorem Kind.isOpener_of_closer? {kind closer : Kind} (h : kind.closer? = some closer) :
    kind.isOpener = true ∧ kind.isCloser = false ∧ closer.isOpener = false ∧
      closer.isCloser = true := by
  cases kind <;> simp_all [closer?] <;> subst h <;> decide

namespace Grammar

open Layout (depthAfter_append)

/-- The brackets among the tokens are properly nested, and each is closed by one of its kind. -/
inductive Balanced : List Token → Prop where
  | nil : Balanced []
  | plain {token : Token} {rest : List Token} :
    token.kind.isBracket = false → Balanced rest → Balanced (token :: rest)
  | pair {opener closer : Token} {inner rest : List Token} :
    opener.kind.closer? = some closer.kind → Balanced inner → Balanced rest →
    Balanced (opener :: (inner ++ closer :: rest))

/-- Balanced tokens behind balanced tokens are balanced. -/
theorem Balanced.append {tokens more : List Token} (h : Balanced tokens) (hmore : Balanced more) :
    Balanced (tokens ++ more) := by
  induction h with
  | nil => exact hmore
  | plain htoken _ ih => exact .plain htoken ih
  | pair hkinds hinner _ _ ih =>
    rw [List.cons_append, List.append_assoc, List.cons_append]
    exact .pair hkinds hinner ih

/-- Tokens without brackets are balanced. -/
theorem balanced_of_plain {tokens : List Token}
    (h : ∀ token ∈ tokens, token.kind.isBracket = false) : Balanced tokens := by
  induction tokens with
  | nil => exact .nil
  | cons token tokens ih =>
    exact .plain (h token (by simp)) (ih fun t ht => h t (List.mem_cons_of_mem _ ht))

/-- A token of another kind in front changes nothing. -/
theorem Balanced.cons {token : Token} {kind : Kind} {rest : List Token} (h : Balanced rest)
    (hkind : token.kind = kind) (hplain : kind.isBracket = false) : Balanced (token :: rest) :=
  .plain (hkind ▸ hplain) h

/-- The tokens stand between two brackets of matching kinds, the first and the last of them. -/
def Enclosed (tokens : List Token) : Prop :=
  ∃ opener inner closer, tokens = opener :: (inner ++ [closer]) ∧
    opener.kind.closer? = some closer.kind ∧ Balanced inner

/-- Balanced tokens between a bracket and its partner are enclosed. -/
theorem Balanced.enclosed {opener closer : Token} {inner : List Token} {first last : Kind}
    (h : Balanced inner) (hopener : opener.kind = first) (hcloser : closer.kind = last)
    (hkinds : first.closer? = some last) : Enclosed (opener :: (inner ++ [closer])) :=
  ⟨opener, inner, closer, rfl, by rw [hopener, hcloser, hkinds], h⟩

/-- Enclosed tokens are balanced. -/
theorem Enclosed.balanced {tokens : List Token} (h : Enclosed tokens) : Balanced tokens := by
  obtain ⟨opener, inner, closer, rfl, hkinds, hinner⟩ := h
  exact .pair hkinds hinner .nil

/-- The first token makes the first step of the depth. -/
theorem depthAfter_cons (depth : Nat) (token : Token) (tokens : List Token) :
    Line.depthAfter depth (token :: tokens) =
      Line.depthAfter (Line.depthStep depth token.kind) tokens := rfl

private theorem depthStep_plain {kind : Kind} (h : kind.isBracket = false) (depth : Nat) :
    Line.depthStep depth kind = depth := by
  obtain ⟨hopener, hcloser⟩ := Bool.or_eq_false_iff.mp h
  simp [Line.depthStep, hopener, hcloser]

/-- The count of brackets ends where it started. -/
theorem Balanced.depthAfter_eq {tokens : List Token} (h : Balanced tokens) (depth : Nat) :
    Line.depthAfter depth tokens = depth := by
  induction h generalizing depth with
  | nil => rfl
  | plain htoken _ ih =>
    rw [depthAfter_cons, depthStep_plain htoken]
    exact ih depth
  | pair hkinds _ _ ihinner ihrest =>
    obtain ⟨hopener, -, hnot, hcloser⟩ := Kind.isOpener_of_closer? hkinds
    rw [depthAfter_cons, depthAfter_append, ihinner, depthAfter_cons, ihrest]
    simp [Line.depthStep, hopener, hnot, hcloser]

/-- Inside balanced tokens the count does not fall below where it started, and in front of a closing
bracket it is above. -/
theorem Balanced.le_depthAfter {tokens before after : List Token} (h : Balanced tokens)
    (htokens : tokens = before ++ after) (depth : Nat) :
    depth ≤ Line.depthAfter depth before ∧
      (∀ closer ∈ after.head?, closer.kind.isCloser = true →
        depth < Line.depthAfter depth before) := by
  induction h generalizing before after depth with
  | nil =>
    obtain ⟨rfl, rfl⟩ := List.append_eq_nil_iff.mp htokens.symm
    exact ⟨Nat.le_refl depth, by simp⟩
  | @plain token rest htoken _ ih =>
    cases before with
    | nil =>
      rw [List.nil_append] at htokens
      subst htokens
      refine ⟨Nat.le_refl depth, fun closer hmem hwrong => ?_⟩
      obtain rfl : token = closer := by simpa using hmem
      rw [(Bool.or_eq_false_iff.mp htoken).2] at hwrong
      cases hwrong
    | cons first before =>
      obtain ⟨rfl, hrest⟩ := List.cons_eq_cons.mp htokens
      rw [depthAfter_cons, depthStep_plain htoken]
      exact ih hrest depth
  | @pair opener closer inner rest hkinds hinner _ ihinner ihrest =>
    obtain ⟨hopener, hstart, hnot, hcloser⟩ := Kind.isOpener_of_closer? hkinds
    have hup : Line.depthStep depth opener.kind = depth + 1 := by simp [Line.depthStep, hopener]
    have hdown : Line.depthStep (depth + 1) closer.kind = depth := by
      simp [Line.depthStep, hnot, hcloser]
    cases before with
    | nil =>
      rw [List.nil_append] at htokens
      subst htokens
      refine ⟨Nat.le_refl depth, fun token hmem hwrong => ?_⟩
      obtain rfl : opener = token := by simpa using hmem
      rw [hstart] at hwrong
      cases hwrong
    | cons first before =>
      obtain ⟨rfl, hmiddle⟩ := List.cons_eq_cons.mp htokens
      rw [depthAfter_cons, hup]
      -- The place is in the pair, right in front of its closing bracket, or behind it.
      rcases List.append_eq_append_iff.mp hmiddle with ⟨more, rfl, hmore⟩ | ⟨more, hinner, -⟩
      · rw [depthAfter_append, hinner.depthAfter_eq]
        cases more with
        | nil => exact ⟨Nat.le_succ depth, fun _ _ _ => Nat.lt_succ_self depth⟩
        | cons first more =>
          obtain ⟨rfl, hrest⟩ := List.cons_eq_cons.mp hmore
          rw [depthAfter_cons, hdown]
          exact ihrest hrest depth
      · have habove := (ihinner hinner (depth + 1)).1
        exact ⟨by omega, fun _ _ _ => by omega⟩

variable {apart : List Token → List Token → Prop}

/-- Ends of lines have no brackets. -/
theorem Newlines.balanced {tokens : List Token} (h : Newlines tokens) : Balanced tokens := by
  refine balanced_of_plain fun token htoken => ?_
  rw [h token htoken]
  rfl

/-- Names have no brackets. -/
theorem Names.balanced {tokens : List Token} (h : Names tokens) : Balanced tokens := by
  refine balanced_of_plain fun token htoken => ?_
  rw [h token htoken]
  rfl

/-- Separators have no brackets. -/
theorem Separators.balanced {tokens : List Token} (h : Separators tokens) : Balanced tokens := by
  refine balanced_of_plain fun token htoken => ?_
  rcases h token htoken with hkind | hkind <;>
    · rw [hkind]
      rfl

/-- Words are not brackets. -/
theorem Balanced.word {token : Token} {word : String} {rest : List Token} (h : Balanced rest)
    (hword : token.isWord word = true) : Balanced (token :: rest) :=
  h.cons (Lexeme.isWord_iff.mp hword).1 rfl

/-- Operators are not brackets. -/
theorem Level.isBracket_operator {level : Level} {token : Token}
    (h : level.isOperator token = true) : token.kind.isBracket = false := by
  cases level with
  | disjunction | conjunction =>
    rw [(Lexeme.isWord_iff.mp h).1]
    rfl
  | comparison | sum | product =>
    simp only [isOperator] at h
    cases hkind : token.kind <;> rw [hkind] at h <;> first | rfl | cases h

/-- **Brackets are nested and matched.** Whatever the grammar spells is balanced. -/
theorem Spells.balanced {tokens : List Token} {phrase : Phrase}
    (h : Spells path apart tokens phrase) :
    Balanced tokens := by
  induction h with
  | inline _ ih | operators _ ih | operand _ ih | callee _ ih | object _ ih => exact ih
  | indented _ hlines hindent _ hends hdedent ih =>
    have hrest := hends.balanced.append (Balanced.nil.cons hdedent rfl)
    exact hlines.balanced.append ((ih.append hrest).cons hindent rfl)
  | function hstart hnames harrow _ ih =>
    exact (hnames.balanced.append (ih.cons harrow rfl)).cons hstart rfl
  | conditional hif _ hthen _ hlines helse _ ihc iht ihe =>
    have hrest := iht.append (hlines.balanced.append (ihe.word helse))
    exact (ihc.append (hrest.word hthen)).word hif
  | select hcase _ hof _ hlines hindent _ _ hdedent ihs iharms =>
    have harms := (iharms.append (Balanced.nil.cons hdedent rfl)).cons hindent rfl
    exact (ihs.append ((hlines.balanced.append harms).word hof)).word hcase
  | operation _ hoperator _ ihleft ihright =>
    exact ihleft.append (.plain (Level.isBracket_operator hoperator) ihright)
  | call _ _ _ _ ihcallee ihrest => exact ihcallee.append ihrest
  | noArguments | noElements | noFields | noArms => exact .nil
  | argument _ _ _ ihfirst ihrest => exact ihfirst.append ihrest
  | get _ _ hdot hname ih =>
    exact ih.append ((Balanced.nil.cons hname rfl).cons hdot rfl)
  | literal htoken =>
    rcases htoken with h | h | h
    · exact Balanced.nil.cons h rfl
    · exact Balanced.nil.cons h rfl
    · exact Balanced.nil.cons (Lexeme.isTruth_iff.mp h).1 rfl
  | negative hminus hnumber => exact (Balanced.nil.cons hnumber rfl).cons hminus rfl
  | reference hname => rcases hname with h | h <;> exact Balanced.nil.cons h rfl
  | grouping hopener hbefore _ hbehind hcloser ih =>
    have hinner := hbefore.balanced.append (ih.append hbehind.balanced)
    simpa using (hinner.enclosed hopener hcloser rfl).balanced
  | list hopener hseparators _ hcloser ih =>
    have hinner := hseparators.balanced.append ih
    simpa using (hinner.enclosed hopener hcloser rfl).balanced
  | record hopener hlines _ _ hcloser ih =>
    have hinner := hlines.balanced.append ih
    simpa using (hinner.enclosed hopener hcloser rfl).balanced
  | update hopener hlines _ hpipe hseparators _ _ hcloser ihtarget ihitems =>
    have hfields := (hseparators.balanced.append ihitems).cons hpipe rfl
    have hinner := hlines.balanced.append (ihtarget.append hfields)
    simpa using (hinner.enclosed hopener hcloser rfl).balanced
  | element _ hseparators _ _ ihfirst ihrest =>
    exact ihfirst.append (hseparators.balanced.append ihrest)
  | field hkey hcolon _ hseparators _ _ ihfirst ihrest =>
    have hrest := ihfirst.append (hseparators.balanced.append ihrest)
    exact (hrest.cons hcolon rfl).cons hkey rfl
  | tag hsubtype hnames harrow _ ih =>
    exact (hnames.balanced.append (ih.cons harrow rfl)).cons hsubtype rfl
  | value _ _ _ harrow _ ihpattern ihresult => exact ihpattern.append (ihresult.cons harrow rfl)
  | nextArm _ hlines _ _ ihfirst ihrest =>
    exact ihfirst.append (hlines.balanced.append ihrest)

/-- The tokens of a type are balanced. -/
theorem SpellsType.balanced {tokens : List Token} {phrase : TypePhrase}
    (h : SpellsType tokens phrase) : Balanced tokens := by
  induction h with
  | named hname _ ih | nameArgument hname _ ih =>
    rcases hname with h | h <;> exact ih.cons h rfl
  | parenthesised hopener _ hcloser ih =>
    exact (ih.enclosed hopener hcloser rfl).balanced
  | noArguments => exact .nil
  | typeArgument hopener _ hcloser _ ihinner ihrest =>
    simpa using (ihinner.enclosed hopener hcloser rfl).balanced.append ihrest

/-- The tokens of subtypes are balanced. -/
theorem SpellsSubtypes.balanced {tokens : List Token}
    {subtypes : List (String × Option TypeExpr)} (h : SpellsSubtypes tokens subtypes) :
    Balanced tokens := by
  induction h with
  | nil => exact .nil
  | cons hname hpayload _ hlines _ ih =>
    have hrest := hlines.balanced.append ih
    cases hpayload with
    | absent => exact hrest.cons hname rfl
    | present htype => exact (htype.balanced.append hrest).cons hname rfl

/-- The tokens of a declaration are balanced. -/
theorem SpellsStmt.balanced {tokens : List Token} {stmt : Stmt}
    (h : SpellsStmt path apart tokens stmt) : Balanced tokens := by
  cases h with
  | binding hname hcolon hbody => exact (hbody.balanced.cons hcolon rfl).cons hname rfl
  | customType hstart hname hcolon _ hlines hindent hbody _ hdedent =>
    have hblock := (hbody.balanced.append (Balanced.nil.cons hdedent rfl)).cons hindent rfl
    exact (((hlines.balanced.append hblock).cons hcolon rfl).cons hname rfl).word hstart

/-- The tokens of a program are balanced. -/
theorem SpellsProgram.balanced {tokens : List Token} {stmts : List Stmt}
    (h : SpellsProgram path apart tokens stmts) : Balanced tokens := by
  obtain ⟨lines, rest, rfl, hlines, hrest⟩ := h
  refine hlines.balanced.append ?_
  induction hrest with
  | nil => exact .nil
  | cons hfirst hends _ _ ih => exact hfirst.balanced.append (hends.balanced.append ih)

end Grammar

end Slick
