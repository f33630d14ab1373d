import Slick.Program.Parser
import Slick.Proofs.Grammar.Completeness
import Slick.Proofs.Grammar.Programs

/-!
# What the reader of programs must accept

Every spelled program that keeps its declarations apart is read back as the declarations it was
spelled for. Together with soundness this makes the grammar and the reader two descriptions of
the same programs. Main statement: `SpellsProgram.ofTokens`.
-/

namespace Slick.Grammar

open Slick.Parser

variable {ctx : Context} {path : Option String}

/-- What a block reads with a guard it reads without one. -/
theorem block_unguarded {p : Parser Expr} {size : Nat} {tokens rest : List Token} {e : Expr}
    (h : Expr.block (p.below size) ctx tokens = .ok e rest) :
    Expr.block p ctx tokens = .ok e rest := by
  simp only [Expr.block, peek_bind] at h ⊢
  split at h
  · next hkind =>
    rw [if_pos hkind]
    exact ok_of_below h
  · next hkind =>
    rw [if_neg hkind]
    rw [skipNewlines_bind] at h ⊢
    obtain ⟨indent, middle, hindent, h⟩ := bind_eq_ok_iff.mp h
    obtain ⟨inner, behind, hinner, h⟩ := bind_eq_ok_iff.mp h
    rw [bind_of_ok hindent, bind_of_ok (ok_of_below hinner)]
    exact h

/-- A block is read wherever no guard stands in the way. -/
theorem block_read {tokens rest : List Token} {e : Expr}
    (h : Spells ctx.path Apart tokens (.block e))
    (hclosed : Closed tokens (rest.headD ctx.last)) :
    Expr.block Expr.parser ctx (tokens ++ rest) = .ok e rest :=
  block_unguarded (h.read ctx rest _ hclosed (Nat.lt_succ_self _))

private theorem binding_read {name colon : Token} {body rest : List Token} {e : Expr}
    (hname : name.kind = .ident) (hcolon : colon.kind = .colon)
    (hbody : Spells ctx.path Apart body (.block e))
    (hclosed : Closed (name :: colon :: body) (rest.headD ctx.last)) :
    Stmt.parser ctx (name :: colon :: (body ++ rest)) =
      .ok (.binding name e (name.location ctx.path)) rest := by
  have hclosedBody : Closed body (rest.headD ctx.last) :=
    hclosed.of_suffix ⟨[name, colon], rfl⟩ (hbody.ne_nil rfl)
  have htype : ¬name.isWord "type" = true := by simp [Lexeme.isWord, hname]
  rw [Stmt.parser, peek_bind_cons, if_neg htype, if_pos hname, Stmt.bindingForm,
    advance_bind_cons, bind_of_ok (expect_any_cons hcolon _ _),
    bind_of_ok (block_read hbody hclosedBody)]
  rfl

private theorem payload_read {tokens rest : List Token} {type : Option TypeExpr}
    (h : SpellsPayload tokens type) (hrest : (rest.headD ctx.last).kind = .newline) :
    Stmt.payload ctx (tokens ++ rest) = .ok type rest := by
  cases h with
  | absent =>
    rw [List.nil_append, Stmt.payload, peek_bind, if_pos hrest]
    rfl
  | present htype =>
    have hread := htype.read ctx rest (by rw [hrest]; rfl)
    have hhead : ((tokens ++ rest).headD ctx.last).kind ≠ .newline := by
      cases htype with
      | named hname => rcases hname with hname | hname <;> simp [hname]
      | parenthesised hopener => simp [hopener]
    rw [Stmt.payload, peek_bind, if_neg hhead, bind_of_ok hread]
    rfl

/-- A subtype is added behind those that are there, if its name is new. -/
theorem subtype_read {name : Token} {payload lines rest : List Token} {type : Option TypeExpr}
    {known : Dictionary (Option TypeExpr)} (hname : name.kind = .uident)
    (hpayload : SpellsPayload payload type) (hne : lines ≠ []) (hlines : Newlines lines)
    (hrest : (rest.headD ctx.last).kind ≠ .newline) (hnew : known.has name.text = false) :
    Stmt.subtype known ctx (name :: (payload ++ (lines ++ rest))) =
      .ok (known ++ [(name.text, type)]) rest := by
  obtain ⟨line, more, rfl⟩ := List.exists_cons_of_ne_nil hne
  have hline : line.kind = .newline := hlines line (by simp)
  have hmore : Newlines more := fun token htoken => hlines token (List.mem_cons_of_mem _ htoken)
  have hreadPayload : Stmt.payload ctx (payload ++ line :: (more ++ rest)) =
      .ok type (line :: (more ++ rest)) := payload_read hpayload hline
  rw [Stmt.subtype, bind_of_ok (expect_any_cons hname _ _), if_neg (by simp [hnew]),
    List.cons_append, bind_of_ok hreadPayload, bind_of_ok (expect_any_cons hline _ _),
    skipNewlines_run hmore (forall_head_of_headD ctx.last hrest),
    Dictionary.put_of_not_has type hnew]
  rfl

/-- Subtypes start with their names. -/
theorem SpellsSubtypes.head_append {tokens rest : List Token}
    {subtypes : List (String × Option TypeExpr)} (h : SpellsSubtypes tokens subtypes)
    (hrest : (rest.headD ctx.last).kind = .dedent) :
    ((tokens ++ rest).headD ctx.last).kind = .uident ∨
      ((tokens ++ rest).headD ctx.last).kind = .dedent := by
  cases h with
  | nil => exact .inr hrest
  | cons hname => exact .inl hname

/-- Subtypes in front of the end of a block are read behind those that are known, if all keys are
apart. -/
theorem SpellsSubtypes.read {tokens rest : List Token}
    {added : List (String × Option TypeExpr)} (h : SpellsSubtypes tokens added)
    (hrest : (rest.headD ctx.last).kind = .dedent) (known : Dictionary (Option TypeExpr))
    (hkeys : ((known ++ added).map Prod.fst).Nodup) :
    fold (fun token _ => token.kind ≠ .dedent && token.kind ≠ .eof) Stmt.subtype known ctx
      (tokens ++ rest) = .ok (known ++ added) rest := by
  induction h generalizing known with
  | nil =>
    rw [List.nil_append, List.append_nil]
    refine fold_of_stop known ?_
    rw [hrest]
    rfl
  | @cons name payload lines tokens type added hname hpayload hne hlines htokens ih =>
    have hnew : known.has name.text = false := by
      rw [Dictionary.has, List.any_eq_false]
      intro entry hentry hsame
      rw [List.map_append, List.nodup_append] at hkeys
      exact hkeys.2.2 entry.1 (List.mem_map_of_mem hentry) name.text (by simp)
        (beq_iff_eq.mp hsame)
    have hhead : ((tokens ++ rest).headD ctx.last).kind ≠ .newline := by
      rcases htokens.head_append hrest with hkind | hkind <;> rw [hkind] <;> decide
    have hreadRest := ih (known ++ [(name.text, type)]) (by simpa using hkeys)
    simp only [List.cons_append, List.append_assoc]
    rw [fold_of_more (by simp [hname]) (subtype_read hname hpayload hne hlines hhead hnew) ?_,
      hreadRest, List.append_assoc, List.singleton_append]
    simp only [List.length_append, List.length_cons]
    omega

private theorem customType_read {start name colon indent dedent : Token}
    {lines body rest : List Token}
    {subtypes : List (String × Option TypeExpr)} (hstart : start.isWord "type" = true)
    (hname : name.kind = .uident) (hcolon : colon.kind = .colon) (hne : lines ≠ [])
    (hlines : Newlines lines) (hindent : indent.kind = .indent)
    (hbody : SpellsSubtypes body subtypes) (hkeys : (subtypes.map Prod.fst).Nodup)
    (hdedent : dedent.kind = .dedent) :
    Stmt.parser ctx
      (start :: name :: colon :: (lines ++ indent :: (body ++ dedent :: rest))) =
        .ok (.customType name subtypes (start.location ctx.path)) rest := by
  obtain ⟨line, more, rfl⟩ := List.exists_cons_of_ne_nil hne
  have hline : line.kind = .newline := hlines line (by simp)
  have hmore : Newlines more := fun token htoken => hlines token (List.mem_cons_of_mem _ htoken)
  have hread : fold (fun token _ => token.kind ≠ .dedent && token.kind ≠ .eof) Stmt.subtype []
      ctx (body ++ dedent :: rest) = .ok subtypes (dedent :: rest) :=
    hbody.read (show ((dedent :: rest).headD ctx.last).kind = .dedent from hdedent) [] hkeys
  rw [Stmt.parser, peek_bind_cons, if_pos hstart, Stmt.customTypeForm, advance_bind_cons,
    bind_of_ok (expect_any_cons hname _ _), bind_of_ok (expect_any_cons hcolon _ _),
    List.cons_append, bind_of_ok (expect_any_cons hline _ _),
    skipNewlines_run hmore (by simp [hindent]), bind_of_ok (expect_any_cons hindent _ _),
    bind_of_ok hread, bind_of_ok (expect_any_cons hdedent _ _)]
  rfl

/-- Every spelled declaration is read in front of a token that does not extend it. -/
theorem SpellsStmt.read {tokens rest : List Token} {stmt : Stmt}
    (h : SpellsStmt ctx.path Apart tokens stmt)
    (hclosed : Closed tokens (rest.headD ctx.last)) :
    Stmt.parser ctx (tokens ++ rest) = .ok stmt rest := by
  cases h with
  | binding hname hcolon hbody => exact binding_read hname hcolon hbody hclosed
  | customType hstart hname hcolon hne hlines hindent hbody hkeys hdedent =>
    simp only [List.cons_append, List.append_assoc, List.nil_append]
    exact customType_read hstart hname hcolon hne hlines hindent hbody hkeys hdedent

/-- A declaration starts with a name or with the word for types. -/
theorem SpellsStmt.exists_cons {apart : List Token → List Token → Prop} {tokens : List Token}
    {stmt : Stmt} (h : SpellsStmt path apart tokens stmt) :
    ∃ token more, tokens = token :: more ∧ (token.kind = .ident ∨ token.kind = .keyword) := by
  cases h with
  | binding hname => exact ⟨_, _, rfl, .inl hname⟩
  | customType hstart => exact ⟨_, _, rfl, .inr (Lexeme.isWord_iff.mp hstart).1⟩

/-- Declarations are followed by the end of the source, and none of them starts with a line end. -/
theorem SpellsStmts.head_ne_newline {tokens rest : List Token} {stmts : List Stmt}
    (h : SpellsStmts ctx.path Apart tokens stmts) (hrest : (rest.headD ctx.last).kind = .eof) :
    ((tokens ++ rest).headD ctx.last).kind ≠ .newline := by
  cases h with
  | nil =>
    rw [List.nil_append, hrest]
    decide
  | cons hfirst =>
    obtain ⟨token, more, rfl, hkind⟩ := hfirst.exists_cons
    rcases hkind with hkind | hkind <;> simp [hkind]

/-- Declarations in front of the end of the source are read one after another. -/
theorem SpellsStmts.read {tokens rest : List Token} {stmts : List Stmt}
    (h : SpellsStmts ctx.path Apart tokens stmts) (hrest : (rest.headD ctx.last).kind = .eof) :
    many (fun token _ => token.kind ≠ .eof) (do
      let first ← Stmt.parser
      skipNewlines
      return first) ctx (tokens ++ rest) = .ok stmts rest := by
  have hstops : extendsExpression (rest.headD ctx.last) = false :=
    extendsExpression_eq_false (by rw [hrest]; decide)
  induction h with
  | nil => exact many_of_stop (by simpa using hrest)
  | @cons first lines tokens stmt stmts hfirst hlines hapart htokens ih =>
    have hclosed := hapart.closed hstops
    have hhead : ∀ token ∈ (tokens ++ rest).head?, token.kind ≠ .newline :=
      forall_head_of_headD ctx.last (htokens.head_ne_newline hrest)
    simp only [List.append_assoc] at hclosed ⊢
    obtain ⟨token, more, rfl, hkind⟩ := hfirst.exists_cons
    refine many_of_more ?_ ?_ ?_ ih
    · rcases hkind with hkind | hkind <;> simp [hkind]
    · rw [bind_of_ok (hfirst.read hclosed), skipNewlines_run hlines hhead]
      rfl
    · simp only [List.length_append, List.length_cons]
      omega

/-- Every spelled program is read, up to the end of the source. -/
theorem SpellsProgram.read {tokens rest : List Token} {stmts : List Stmt}
    (h : SpellsProgram ctx.path Apart tokens stmts) (hrest : (rest.headD ctx.last).kind = .eof) :
    Program.statementsForm ctx (tokens ++ rest) = .ok stmts rest := by
  obtain ⟨lines, body, rfl, hlines, hbody⟩ := h
  have hhead : ∀ token ∈ (body ++ rest).head?, token.kind ≠ .newline :=
    forall_head_of_headD ctx.last (hbody.head_ne_newline hrest)
  rw [List.append_assoc, Program.statementsForm, skipNewlines_run hlines hhead]
  exact hbody.read hrest

/-- The program that is read keeps the path of the source. -/
theorem SpellsProgram.form_read {tokens rest : List Token} {stmts : List Stmt}
    (h : SpellsProgram ctx.path Apart tokens stmts) (hrest : (rest.headD ctx.last).kind = .eof) :
    Program.form ctx (tokens ++ rest) = .ok ⟨stmts, ctx.path⟩ rest := by
  rw [Program.form, bind_of_ok (h.read hrest)]
  rfl

/-- **Completeness.** A token list that spells a program and then ends the source is read as that
program. -/
theorem SpellsProgram.ofTokens {tokens : List Token} {stmts : List Stmt} {eof : Token}
    (h : SpellsProgram path Apart tokens stmts) (heof : eof.kind = .eof) :
    Program.ofTokens (tokens ++ [eof]) path = .ok ⟨stmts, path⟩ := by
  have hread : Program.form ⟨eof, path⟩ (tokens ++ [eof]) = .ok ⟨stmts, path⟩ [eof] :=
    SpellsProgram.form_read h heof
  simp only [Program.ofTokens, List.getLast?_append, List.getLast?_singleton, Option.some_or,
    hread]

end Slick.Grammar
