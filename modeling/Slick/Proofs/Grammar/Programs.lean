import Slick.Program
import Slick.Proofs.Grammar.Expressions
import Slick.Proofs.Grammar.Types

/-!
# The grammar of programs

A program is a sequence of declarations with line ends between them. The relations here continue
`Spells` from expressions to declarations, with the same parameter for what may follow an item
directly. No spelling holds the end of the source.
-/

namespace Slick.Grammar

/-- The tokens spell the payload of a subtype, which may be missing. -/
inductive SpellsPayload : List Token → Option TypeExpr → Prop where
  | absent : SpellsPayload [] none
  | present {tokens : List Token} {type : TypeExpr} :
    SpellsType tokens (.type type) → SpellsPayload tokens (some type)

/-- The tokens spell subtypes with their payloads, each on a line of its own. -/
inductive SpellsSubtypes : List Token → List (String × Option TypeExpr) → Prop where
  | nil : SpellsSubtypes [] []
  | cons {name : Token} {payload lines rest : List Token} {type : Option TypeExpr}
      {subtypes : List (String × Option TypeExpr)} :
    name.kind = .uident → SpellsPayload payload type → lines ≠ [] → Newlines lines →
    SpellsSubtypes rest subtypes →
    SpellsSubtypes (name :: (payload ++ (lines ++ rest))) ((name.text, type) :: subtypes)

/-- The tokens spell the declaration. -/
inductive SpellsStmt (path : Option String) (apart : List Token → List Token → Prop) :
    List Token → Stmt → Prop where
  | binding {name colon : Token} {body : List Token} {e : Expr} :
    name.kind = .ident → colon.kind = .colon → Spells path apart body (.block e) →
    SpellsStmt path apart (name :: colon :: body) (.binding name e (name.location path))
  | customType {start name colon indent dedent : Token} {lines body : List Token}
      {subtypes : List (String × Option TypeExpr)} :
    start.isWord "type" = true → name.kind = .uident → colon.kind = .colon → lines ≠ [] →
    Newlines lines → indent.kind = .indent → SpellsSubtypes body subtypes →
    (subtypes.map Prod.fst).Nodup → dedent.kind = .dedent →
    SpellsStmt path apart (start :: name :: colon :: (lines ++ indent :: (body ++ [dedent])))
      (.customType name subtypes (start.location path))

/-- The tokens spell the declarations one after another, with line ends behind each of them. -/
inductive SpellsStmts (path : Option String) (apart : List Token → List Token → Prop) :
    List Token → List Stmt → Prop where
  | nil : SpellsStmts path apart [] []
  | cons {first lines rest : List Token} {stmt : Stmt} {stmts : List Stmt} :
    SpellsStmt path apart first stmt → Newlines lines → apart first (lines ++ rest) →
    SpellsStmts path apart rest stmts →
    SpellsStmts path apart (first ++ (lines ++ rest)) (stmt :: stmts)

/-- The tokens spell the declarations of a program, which may start with line ends. -/
def SpellsProgram (path : Option String) (apart : List Token → List Token → Prop)
    (tokens : List Token) (stmts : List Stmt) : Prop :=
  ∃ lines rest, tokens = lines ++ rest ∧ Newlines lines ∧ SpellsStmts path apart rest stmts

/-- The tokens spell the program by the grammar alone, whatever stands side by side. -/
abbrev DerivesProgram (path : Option String) : List Token → List Stmt → Prop :=
  SpellsProgram path fun _ _ => True

variable {path : Option String} {apart apart' : List Token → List Token → Prop}

/-- A declaration is spelled under every wider reading of what stands apart. -/
theorem SpellsStmt.mono (happart : ∀ item rest, apart item rest → apart' item rest)
    {tokens : List Token} {stmt : Stmt} (h : SpellsStmt path apart tokens stmt) :
    SpellsStmt path apart' tokens stmt := by
  cases h with
  | binding hname hcolon hbody => exact .binding hname hcolon (hbody.mono happart)
  | customType hstart hname hcolon hne hlines hindent hbody hkeys hdedent =>
    exact .customType hstart hname hcolon hne hlines hindent hbody hkeys hdedent

/-- Declarations are spelled under every wider reading of what stands apart. -/
theorem SpellsStmts.mono (happart : ∀ item rest, apart item rest → apart' item rest)
    {tokens : List Token} {stmts : List Stmt} (h : SpellsStmts path apart tokens stmts) :
    SpellsStmts path apart' tokens stmts := by
  induction h with
  | nil => exact .nil
  | cons hfirst hlines hapart _ ih =>
    exact .cons (hfirst.mono happart) hlines (happart _ _ hapart) ih

/-- A program that keeps its items apart is a program of the grammar. -/
theorem SpellsProgram.derives {tokens : List Token} {stmts : List Stmt}
    (h : SpellsProgram path apart tokens stmts) : DerivesProgram path tokens stmts := by
  obtain ⟨lines, rest, htokens, hlines, hrest⟩ := h
  exact ⟨lines, rest, htokens, hlines, hrest.mono fun _ _ _ => trivial⟩

/-- None of the tokens is the end of the source. -/
def NoEnd (tokens : List Token) : Prop := ∀ token ∈ tokens, token.kind ≠ .eof

/-- No tokens have no end of the source among them. -/
@[simp] theorem noEnd_nil : NoEnd [] := by simp [NoEnd]

/-- The end of the source is neither the first token nor among the others. -/
@[simp] theorem noEnd_cons {token : Token} {tokens : List Token} :
    NoEnd (token :: tokens) ↔ token.kind ≠ .eof ∧ NoEnd tokens := by
  simp [NoEnd]

/-- The end of the source is in neither of two lists. -/
@[simp] theorem noEnd_append {before behind : List Token} :
    NoEnd (before ++ behind) ↔ NoEnd before ∧ NoEnd behind := by
  simp only [NoEnd, List.mem_append]
  exact ⟨fun h => ⟨fun t ht => h t (.inl ht), fun t ht => h t (.inr ht)⟩,
    fun h t ht => ht.elim (h.1 t) (h.2 t)⟩

/-- The end of the source is no end of a line. -/
theorem Newlines.noEnd {tokens : List Token} (h : Newlines tokens) : NoEnd tokens := by
  intro token htoken
  rw [h token htoken]
  decide

/-- The end of the source is no name. -/
theorem Names.noEnd {tokens : List Token} (h : Names tokens) : NoEnd tokens := by
  intro token htoken
  rw [h token htoken]
  decide

/-- The end of the source is no separator. -/
theorem Separators.noEnd {tokens : List Token} (h : Separators tokens) : NoEnd tokens := by
  intro token htoken
  rcases h token htoken with hkind | hkind <;> rw [hkind] <;> decide

/-- The end of the source is no word. -/
theorem kind_ne_eof_of_isWord {token : Token} {word : String} (h : token.isWord word = true) :
    token.kind ≠ .eof := by
  rw [(Lexeme.isWord_iff.mp h).1]
  decide

/-- Operators are tokens of the source, not its end. -/
theorem Level.kind_ne_eof {level : Level} {token : Token} (h : level.isOperator token = true) :
    token.kind ≠ .eof := by
  intro hkind
  cases level <;> simp [isOperator, Lexeme.isWord, hkind, Kind.isComparison, Kind.isAdditive,
    Kind.isMultiplicative] at h

/-- The end of the source is not among the tokens of an expression. -/
theorem Spells.noEnd {tokens : List Token} {phrase : Phrase} (h : Spells path apart tokens phrase) :
    NoEnd tokens := by
  induction h with
  | inline _ ih | operators _ ih | operand _ ih | callee _ ih | object _ ih => exact ih
  | indented _ hlines hindent _ hends hdedent ih =>
    simp [hlines.noEnd, hindent, ih, hends.noEnd, hdedent]
  | function hstart hnames harrow _ ih => simp [hstart, hnames.noEnd, harrow, ih]
  | conditional hif _ hthen _ hlines helse _ ihc iht ihe =>
    simp [kind_ne_eof_of_isWord hif, ihc, kind_ne_eof_of_isWord hthen, iht, hlines.noEnd,
      kind_ne_eof_of_isWord helse, ihe]
  | select hcase _ hof _ hlines hindent _ _ hdedent ihs iharms =>
    simp [kind_ne_eof_of_isWord hcase, ihs, kind_ne_eof_of_isWord hof, hlines.noEnd, hindent,
      iharms, hdedent]
  | operation _ hoperator _ ihleft ihright =>
    simp [ihleft, Level.kind_ne_eof hoperator, ihright]
  | call _ _ _ _ ihcallee ihrest => simp [ihcallee, ihrest]
  | noArguments | noElements | noFields | noArms => simp
  | argument _ _ _ ihfirst ihrest => simp [ihfirst, ihrest]
  | get _ _ hdot hname ih => simp [ih, hdot, hname]
  | literal htoken =>
    rcases htoken with h | h | h
    · simp [h]
    · simp [h]
    · simp [(Lexeme.isTruth_iff.mp h).1]
  | negative hminus hnumber => simp [hminus, hnumber]
  | reference hname => rcases hname with h | h <;> simp [h]
  | grouping hopener hbefore _ hbehind hcloser ih =>
    simp [hopener, hbefore.noEnd, ih, hbehind.noEnd, hcloser]
  | list hopener hseparators _ hcloser ih => simp [hopener, hseparators.noEnd, ih, hcloser]
  | record hopener hlines _ _ hcloser ih => simp [hopener, hlines.noEnd, ih, hcloser]
  | update hopener hlines _ hpipe hseparators _ _ hcloser ihtarget ihitems =>
    simp [hopener, hlines.noEnd, ihtarget, hpipe, hseparators.noEnd, ihitems, hcloser]
  | element _ hseparators _ _ ihfirst ihrest => simp [ihfirst, hseparators.noEnd, ihrest]
  | field hkey hcolon _ hseparators _ _ ihfirst ihrest =>
    simp [hkey, hcolon, ihfirst, hseparators.noEnd, ihrest]
  | tag hsubtype hnames harrow _ ih => simp [hsubtype, hnames.noEnd, harrow, ih]
  | value _ _ _ harrow _ ihpattern ihresult => simp [ihpattern, harrow, ihresult]
  | nextArm _ hlines _ _ ihfirst ihrest => simp [ihfirst, hlines.noEnd, ihrest]

/-- The end of the source is not among the tokens of a type. -/
theorem SpellsType.noEnd {tokens : List Token} {phrase : TypePhrase}
    (h : SpellsType tokens phrase) : NoEnd tokens := by
  induction h with
  | named hname _ ih | nameArgument hname _ ih => rcases hname with h | h <;> simp [h, ih]
  | parenthesised hopener _ hcloser ih => simp [hopener, ih, hcloser]
  | noArguments => simp
  | typeArgument hopener _ hcloser _ ihinner ihrest => simp [hopener, ihinner, hcloser, ihrest]

/-- The end of the source is not among the tokens of subtypes. -/
theorem SpellsSubtypes.noEnd {tokens : List Token} {subtypes : List (String × Option TypeExpr)}
    (h : SpellsSubtypes tokens subtypes) : NoEnd tokens := by
  induction h with
  | nil => simp
  | cons hname hpayload _ hlines _ ih =>
    cases hpayload with
    | absent => simp [hname, hlines.noEnd, ih]
    | present htype => simp [hname, htype.noEnd, hlines.noEnd, ih]

/-- The end of the source is not among the tokens of declarations. -/
theorem SpellsStmts.noEnd {tokens : List Token} {stmts : List Stmt}
    (h : SpellsStmts path apart tokens stmts) : NoEnd tokens := by
  induction h with
  | nil => simp
  | cons hfirst hlines _ _ ih =>
    cases hfirst with
    | binding hname hcolon hbody => simp [hname, hcolon, hbody.noEnd, hlines.noEnd, ih]
    | customType hstart hname hcolon _ hbefore hindent hbody _ hdedent =>
      simp [kind_ne_eof_of_isWord hstart, hname, hcolon, hbefore.noEnd, hindent, hbody.noEnd,
        hdedent, hlines.noEnd, ih]

/-- The spelling of a program does not reach the end of the source. -/
theorem SpellsProgram.noEnd {tokens : List Token} {stmts : List Stmt}
    (h : SpellsProgram path apart tokens stmts) : NoEnd tokens := by
  obtain ⟨lines, rest, rfl, hlines, hrest⟩ := h
  exact noEnd_append.mpr ⟨hlines.noEnd, hrest.noEnd⟩

end Slick.Grammar
