import Slick.Proofs.Grammar.ProgramCompleteness

/-!
# Programs one behind the other

No declaration ends with a line end, so in a program whose last token ends a line or closes a block,
the last declaration is kept apart from whatever follows it. Hence two such programs may stand one
behind the other. Main statement: `SpellsProgram.append`.
-/

namespace Slick.Grammar

/-- Whether the last of the tokens ends a line. -/
def EndsLine (tokens : List Token) : Prop := ∃ token ∈ tokens.getLast?, token.kind = .newline

private theorem endsLine_nil : ¬EndsLine [] := by simp [EndsLine]

/-- A list ends as its last part does. -/
theorem endsLine_append_cons {before tokens : List Token} {token : Token} :
    EndsLine (before ++ token :: tokens) ↔ EndsLine (token :: tokens) := by
  simp [EndsLine, List.getLast?_append, List.getLast?_cons]

private theorem not_endsLine_cons {token : Token} {tokens : List Token}
    (htoken : token.kind ≠ .newline)
    (htokens : ¬EndsLine tokens) : ¬EndsLine (token :: tokens) := by
  rintro ⟨last, hlast, hkind⟩
  rw [List.getLast?_cons, Option.mem_some_iff] at hlast
  cases hend : tokens.getLast? with
  | none =>
    rw [hend, Option.getD_none] at hlast
    exact htoken (hlast ▸ hkind)
  | some final =>
    rw [hend, Option.getD_some] at hlast
    exact htokens ⟨final, hend, hlast ▸ hkind⟩

private theorem not_endsLine_append {before tokens : List Token} (hbefore : ¬EndsLine before)
    (htokens : ¬EndsLine tokens) : ¬EndsLine (before ++ tokens) := by
  cases tokens with
  | nil => rwa [List.append_nil]
  | cons token tokens => rwa [endsLine_append_cons]

/-- The categories that may end with separators or line ends. -/
def Phrase.isSequence : Phrase → Bool
  | .elements _ | .fields _ | .arms _ => true
  | _ => false

private theorem Level.isSequence_operand (level : Level) (e : Expr) :
    (level.operand e).isSequence = false := by
  cases level <;> rfl

/-- A phrase that is no sequence does not end with a line end. -/
theorem Spells.not_endsLine {apart : List Token → List Token → Prop} {tokens : List Token}
    {phrase : Phrase} (h : Spells path apart tokens phrase) (hphrase : phrase.isSequence = false) :
    ¬EndsLine tokens := by
  induction h with
  | noElements | element | noFields | field | noArms | nextArm => cases hphrase
  | inline _ ih | operators _ ih | callee _ ih | object _ ih => exact ih rfl
  | @operand level _ _ _ ih => exact ih (level.isSequence_operand _)
  | noArguments => exact endsLine_nil
  | call _ _ _ _ ihfirst ihrest | argument _ _ _ ihfirst ihrest =>
    exact not_endsLine_append (ihfirst rfl) (ihrest rfl)
  | @operation level _ _ operator _ _ _ hoperator _ _ ih =>
    have hkind : operator.kind ≠ .newline := by
      intro hkind
      cases level <;> simp [Level.isOperator, Lexeme.isWord, hkind, Kind.isComparison,
        Kind.isAdditive, Kind.isMultiplicative] at hoperator
    rw [endsLine_append_cons]
    exact not_endsLine_cons hkind (ih (level.isSequence_operand _))
  | function _ _ harrow _ ih | tag _ _ harrow _ ih =>
    rw [← List.cons_append, endsLine_append_cons]
    exact not_endsLine_cons (by simp [harrow]) (ih rfl)
  | value _ _ _ harrow _ _ ih =>
    rw [endsLine_append_cons]
    exact not_endsLine_cons (by simp [harrow]) (ih rfl)
  | @conditional start thenWord elseWord condition thenPart lines elsePart _ _ _ _ _ _ _ _ helse _
      _ _ ih =>
    have hkind := (Lexeme.isWord_iff.mp helse).1
    have htokens :
        start :: (condition ++ thenWord :: (thenPart ++ (lines ++ elseWord :: elsePart))) =
          (start :: (condition ++ thenWord :: (thenPart ++ lines))) ++ elseWord :: elsePart := by
      simp
    rw [htokens, endsLine_append_cons]
    exact not_endsLine_cons (by simp [hkind]) (ih rfl)
  | get _ _ _ hname => simp [EndsLine, hname]
  | literal htoken =>
    rintro ⟨last, hlast, hkind⟩
    rw [List.getLast?_singleton, Option.mem_some_iff] at hlast
    simp [hlast, hkind, Lexeme.isTruth] at htoken
  | negative _ hnumber => simp [EndsLine, hnumber]
  | reference hname =>
    rintro ⟨last, hlast, hkind⟩
    rw [List.getLast?_singleton, Option.mem_some_iff] at hlast
    simp [hlast, hkind] at hname
  | grouping _ _ _ _ hcloser | list _ _ _ hcloser | record _ _ _ _ hcloser
  | update _ _ _ _ _ _ _ hcloser | indented _ _ _ _ _ hcloser
  | select _ _ _ _ _ _ _ _ hcloser => simp [EndsLine, List.getLast?_cons, hcloser]

private theorem SpellsStmt.not_endsLine {apart : List Token → List Token → Prop}
    {tokens : List Token}
    {stmt : Stmt} (h : SpellsStmt path apart tokens stmt) : ¬EndsLine tokens := by
  cases h with
  | binding hname hcolon hbody =>
    exact not_endsLine_cons (by simp [hname])
      (not_endsLine_cons (by simp [hcolon]) (hbody.not_endsLine rfl))
  | customType _ _ _ _ _ _ _ _ hdedent => simp [EndsLine, List.getLast?_cons, hdedent]

/-- What follows the rest of an item is kept apart from it as well, if the rest is there or the
item ends with a block. -/
theorem Apart.append_right {item rest : List Token} (h : Apart item rest)
    (hblock : rest = [] → EndsBlock item) (more : List Token) : Apart item (rest ++ more) := by
  cases rest with
  | nil => exact .inl (hblock rfl)
  | cons token rest => exact h

/-- Whether the tokens are those of whole lines: the last one ends a line or closes a block. -/
def EndsWhole (tokens : List Token) : Prop :=
  ∀ last ∈ tokens.getLast?, last.kind = .newline ∨ last.kind = .dedent

/-- What ends whole still does without its first tokens. -/
theorem EndsWhole.of_append {before tokens : List Token} (h : EndsWhole (before ++ tokens)) :
    EndsWhole tokens := by
  intro last hlast
  exact h last (by simp [List.getLast?_append, Option.mem_def.mp hlast])

/-- Declarations of whole lines are kept apart from a program behind them. -/
theorem SpellsStmts.append {tokens tokens' : List Token} {stmts stmts' : List Stmt}
    (h : SpellsStmts path Apart tokens stmts) (hends : EndsWhole tokens)
    (h' : SpellsProgram path Apart tokens' stmts') :
    SpellsProgram path Apart (tokens ++ tokens') (stmts ++ stmts') := by
  induction h with
  | nil => exact h'
  | @cons first lines rest stmt stmts hfirst hlines hapart _ ih =>
    obtain ⟨lines', rest', hsplit, hlines', hrest'⟩ := ih hends.of_append.of_append
    -- Where nothing stands behind the first declaration, it is the last and closes a block.
    have hblock : lines ++ rest = [] → EndsBlock first := by
      intro hnil
      obtain ⟨token, more, rfl, -⟩ := hfirst.exists_cons
      rw [hnil, List.append_nil] at hends
      obtain ⟨last, hlast⟩ : ∃ last, (token :: more).getLast? = some last := by
        simp [List.getLast?_cons]
      refine ⟨last, hlast, (hends last hlast).resolve_left fun hkind => ?_⟩
      exact hfirst.not_endsLine ⟨last, hlast, hkind⟩
    have hapart' := hapart.append_right hblock tokens'
    rw [List.append_assoc, hsplit, ← List.append_assoc] at hapart'
    refine ⟨[], first ++ ((lines ++ lines') ++ rest'), ?_, by simp [Newlines], ?_⟩
    · simp [hsplit]
    · refine .cons hfirst (fun token htoken => ?_) hapart' hrest'
      exact (List.mem_append.mp htoken).elim (hlines token) (hlines' token)

/-- **Programs compose.** A program of whole lines may stand in front of any other program. -/
theorem SpellsProgram.append {tokens tokens' : List Token} {stmts stmts' : List Stmt}
    (h : SpellsProgram path Apart tokens stmts) (hends : EndsWhole tokens)
    (h' : SpellsProgram path Apart tokens' stmts') :
    SpellsProgram path Apart (tokens ++ tokens') (stmts ++ stmts') := by
  obtain ⟨lines, rest, rfl, hlines, hrest⟩ := h
  obtain ⟨lines', rest', hsplit, hlines', hrest'⟩ := hrest.append hends.of_append h'
  refine ⟨lines ++ lines', rest', by simp [hsplit], fun token htoken => ?_, hrest'⟩
  exact (List.mem_append.mp htoken).elim (hlines token) (hlines' token)

/-- A program does not start with a block. -/
theorem SpellsProgram.head_ne_indent {apart : List Token → List Token → Prop}
    {tokens : List Token} {stmts : List Stmt} (h : SpellsProgram path apart tokens stmts) :
    ∀ token ∈ tokens.head?, token.kind ≠ .indent := by
  obtain ⟨lines, rest, rfl, hlines, hrest⟩ := h
  intro token htoken
  cases lines with
  | cons line lines =>
    obtain rfl : line = token := by simpa using htoken
    rw [hlines line (by simp)]
    decide
  | nil =>
    cases hrest with
    | nil => simp at htoken
    | cons hfirst =>
      obtain ⟨name, more, rfl, hkind⟩ := hfirst.exists_cons
      obtain rfl : name = token := by simpa using htoken
      rcases hkind with hkind | hkind <;> rw [hkind] <;> decide

end Slick.Grammar
