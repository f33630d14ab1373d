import Slick.Program.Parser
import Slick.Proofs.Grammar.Soundness

/-!
# What the reader of programs accepts

A program that was read is spelled by the tokens up to the end of the source. Main statement:
`ofTokens_derives`.
-/

namespace Slick.Grammar

open Slick.Parser

variable {ctx : Context} {path : Option String}

private theorem payload_reads (hlast : ctx.last.kind = .eof) {tokens rest : List Token}
    {type : Option TypeExpr} (h : Stmt.payload ctx tokens = .ok type rest) :
    ∃ used, tokens = used ++ rest ∧ SpellsPayload used type := by
  simp only [Stmt.payload, peek_bind] at h
  split at h
  · cases h
    exact ⟨[], rfl, .absent⟩
  · obtain ⟨type, rest', htype, h⟩ := bind_eq_ok_iff.mp h
    cases h
    obtain ⟨used, rfl, hspells⟩ := parser_type_reads hlast _ _ _ htype
    exact ⟨used, rfl, .present hspells⟩

/-- Subtypes are added behind those that are there, under names of their own. -/
theorem subtypes_fold (hlast : ctx.last.kind = .eof) {tokens rest : List Token}
    {known entries : Dictionary (Option TypeExpr)}
    (h : fold (fun token _ => token.kind ≠ .dedent && token.kind ≠ .eof) Stmt.subtype known ctx
      tokens = .ok entries rest) (hknown : (known.map Prod.fst).Nodup) :
    ∃ used added, tokens = used ++ rest ∧ SpellsSubtypes used added ∧
      entries = known ++ added ∧ (entries.map Prod.fst).Nodup := by
  refine fold_induct (P := fun known tokens entries rest => (known.map Prod.fst).Nodup →
    ∃ used added, tokens = used ++ rest ∧ SpellsSubtypes used added ∧
      entries = known ++ added ∧ (entries.map Prod.fst).Nodup) ?_ ?_ h hknown
  · intro known tokens _ hknown
    exact ⟨[], [], rfl, .nil, by simp, hknown⟩
  · intro known tokens grown middle entries rest _ hsubtype ih hknown
    simp only [Stmt.subtype] at hsubtype
    obtain ⟨name, middle₁, hname, hsubtype⟩ := bind_eq_ok_iff.mp hsubtype
    split at hsubtype
    · exact absurd hsubtype (refuse_ne_ok _ _ _)
    · next hnew =>
      obtain ⟨type, middle₂, htype, hsubtype⟩ := bind_eq_ok_iff.mp hsubtype
      obtain ⟨newline, behind, hnewline, hsubtype⟩ := bind_eq_ok_iff.mp hsubtype
      rw [skipNewlines_bind] at hsubtype
      cases hsubtype
      obtain ⟨rfl, hnameKind, -⟩ := eq_cons_of_expect hlast (by decide) hname
      obtain ⟨usedType, rfl, hpayload⟩ := payload_reads hlast htype
      obtain ⟨rfl, hnewlineKind, -⟩ := eq_cons_of_expect hlast (by decide) hnewline
      obtain ⟨usedRest, added, hmiddle, hrestSpells, hentries, hkeys⟩ :=
        ih (Dictionary.keys_put_nodup name.text type hknown)
      have hlines := (newlines_takeWhile behind).cons hnewlineKind
      refine ⟨_, (name.text, type) :: added, ?_,
        .cons hnameKind hpayload (by simp) hlines hrestSpells, ?_, hkeys⟩
      · conv_lhs => rw [eq_append_of_dropWhile hmiddle]
        simp
      · rw [hentries, Dictionary.put_of_not_has type (by simpa using hnew)]
        simp

private theorem customTypeForm_reads (hlast : ctx.last.kind = .eof) {start : Token}
    (hstart : start.isWord "type" = true) {tokens rest : List Token} {stmt : Stmt}
    (h : Stmt.customTypeForm ctx (start :: tokens) = .ok stmt rest) :
    ∃ used, start :: tokens = used ++ rest ∧ SpellsStmt ctx.path Apart used stmt ∧
      EndsBlock used := by
  simp only [Stmt.customTypeForm, advance_bind_cons] at h
  obtain ⟨name, middle, hname, h⟩ := bind_eq_ok_iff.mp h
  obtain ⟨colon, middle₂, hcolon, h⟩ := bind_eq_ok_iff.mp h
  obtain ⟨newline, behind, hnewline, h⟩ := bind_eq_ok_iff.mp h
  rw [skipNewlines_bind] at h
  obtain ⟨indent, middle₃, hindent, h⟩ := bind_eq_ok_iff.mp h
  obtain ⟨subtypes, middle₄, hsubtypes, h⟩ := bind_eq_ok_iff.mp h
  obtain ⟨dedent, rest', hdedent, h⟩ := bind_eq_ok_iff.mp h
  cases h
  obtain ⟨rfl, hnameKind, -⟩ := eq_cons_of_expect hlast (by decide) hname
  obtain ⟨rfl, hcolonKind, -⟩ := eq_cons_of_expect hlast (by decide) hcolon
  obtain ⟨rfl, hnewlineKind, -⟩ := eq_cons_of_expect hlast (by decide) hnewline
  obtain ⟨hbehind, hindentKind, -⟩ := eq_cons_of_expect hlast (by decide) hindent
  obtain ⟨used, added, rfl, hspells, heq, hkeys⟩ := subtypes_fold hlast hsubtypes (by simp)
  obtain ⟨rfl, hdedentKind, -⟩ := eq_cons_of_expect hlast (by decide) hdedent
  obtain rfl : subtypes = added := by simpa using heq
  have hlines := (newlines_takeWhile behind).cons hnewlineKind
  have hblock := endsBlock_singleton.mpr hdedentKind
  refine ⟨_, ?_, .customType hstart hnameKind hcolonKind (by simp) hlines hindentKind hspells hkeys
    hdedentKind, ?_⟩
  · conv_lhs => rw [eq_append_of_dropWhile hbehind]
    simp
  · exact ((((hblock.append_left _).cons _).append_left _).cons _).cons _ |>.cons _

private theorem stmtParser_reads (hlast : ctx.last.kind = .eof) {tokens rest : List Token}
    {stmt : Stmt}
    (h : Stmt.parser ctx tokens = .ok stmt rest) :
    ∃ used, tokens = used ++ rest ∧ SpellsStmt ctx.path Apart used stmt ∧
      Ended used (rest.headD ctx.last) := by
  simp only [Stmt.parser, peek_bind] at h
  split at h
  · next htype =>
    have hcons := eq_cons_of_kind_ne_eof hlast (kind_ne_eof_of_isWord htype)
    rw [hcons] at h ⊢
    obtain ⟨used, htokens, hspells, hblock⟩ := customTypeForm_reads hlast htype h
    exact ⟨used, htokens, hspells, .inl hblock⟩
  split at h
  · next hname =>
    have hcons := eq_cons_of_kind_ne_eof hlast (by rw [hname]; decide)
    simp only [Stmt.bindingForm, advance_bind] at h
    obtain ⟨colon, middle, hcolon, h⟩ := bind_eq_ok_iff.mp h
    obtain ⟨initializer, rest', hinitializer, h⟩ := bind_eq_ok_iff.mp h
    cases h
    obtain ⟨htail, hcolonKind, -⟩ := eq_cons_of_expect hlast (by decide) hcolon
    obtain ⟨used, rfl, hspells, hended⟩ :=
      block_reads hlast (parser_reads hlast) _ _ _ hinitializer
    refine ⟨_, ?_, .binding hname hcolonKind hspells, ?_⟩
    · conv_lhs => rw [hcons, htail]
      simp
    · exact hended.imp (fun hblock => (hblock.cons _).cons _) id
  · exact absurd h (refuse_ne_ok _ _ _)

/-- A declaration starts neither with a dot nor with a comparison operator. -/
theorem SpellsStmts.head_plain {apart : List Token → List Token → Prop} {tokens : List Token}
    {stmts : List Stmt} (h : SpellsStmts path apart tokens stmts) :
    ∀ token ∈ tokens.head?, token.kind ≠ .dot ∧ token.kind.isComparison = false := by
  intro token htoken
  cases h with
  | nil => cases htoken
  | cons hfirst =>
    cases hfirst with
    | binding hname =>
      obtain rfl : _ = token := by simpa using htoken
      simp [hname, Kind.isComparison]
    | customType hstart =>
      obtain rfl : _ = token := by simpa using htoken
      simp [(Lexeme.isWord_iff.mp hstart).1, Kind.isComparison]

private theorem statements_read (hlast : ctx.last.kind = .eof) {tokens rest : List Token}
    {stmts : List Stmt}
    (h : many (fun token _ => token.kind ≠ .eof) (do
      let first ← Stmt.parser
      skipNewlines
      return first) ctx tokens = .ok stmts rest) :
    ∃ used, tokens = used ++ rest ∧ SpellsStmts ctx.path Apart used stmts ∧
      (rest.headD ctx.last).kind = .eof := by
  refine many_induct (P := fun tokens stmts rest => ∃ used, tokens = used ++ rest ∧
    SpellsStmts ctx.path Apart used stmts ∧ (rest.headD ctx.last).kind = .eof) ?_ ?_ h
  · intro tokens hstop
    exact ⟨[], rfl, .nil, by simpa using hstop⟩
  · intro tokens first middle others rest _ hitem ih
    obtain ⟨usedRest, hmiddle, hrestSpells, heof⟩ := ih
    obtain ⟨stmt, behind, hstmt, hitem⟩ := bind_eq_ok_iff.mp hitem
    rw [skipNewlines_bind] at hitem
    cases hitem
    obtain ⟨usedFirst, rfl, hfirstSpells, hended⟩ := stmtParser_reads hlast hstmt
    have hbehind := eq_append_of_dropWhile hmiddle
    have hlines := newlines_takeWhile behind
    rw [hbehind] at hended
    have hapart := hended.apart_separated hlines.separators hrestSpells.head_plain
    refine ⟨_, ?_, .cons hfirstSpells hlines hapart hrestSpells, heof⟩
    conv_lhs => rw [hbehind]
    simp

/-- A program that was read is spelled by the tokens in front of the place where the reading stops,
which is the end of the source. -/
theorem statementsForm_reads (hlast : ctx.last.kind = .eof) {tokens rest : List Token}
    {stmts : List Stmt} (h : Program.statementsForm ctx tokens = .ok stmts rest) :
    ∃ used, tokens = used ++ rest ∧ SpellsProgram ctx.path Apart used stmts ∧
      (rest.headD ctx.last).kind = .eof := by
  simp only [Program.statementsForm, skipNewlines_bind] at h
  obtain ⟨used, htokens, hspells, heof⟩ := statements_read hlast h
  refine ⟨tokens.takeWhile (fun token => token.kind == .newline) ++ used, ?_,
    ⟨_, used, rfl, newlines_takeWhile tokens, hspells⟩, heof⟩
  rw [List.append_assoc]
  exact eq_append_of_dropWhile htokens

/-- A token list that is read as a program is spelled for it up to the first end of the source. -/
theorem ofTokens_reads {tokens : List Token} {last : Token} {path : Option String}
    {program : Program} (hlast : tokens.getLast? = some last) (heof : last.kind = .eof)
    (h : Program.ofTokens tokens path = .ok program) :
    ∃ used eof more, tokens = used ++ eof :: more ∧ eof.kind = .eof ∧
      Program.form ⟨last, path⟩ tokens = .ok program (eof :: more) ∧
      program.path = path ∧ SpellsProgram path Apart used program.statements := by
  simp only [Program.ofTokens, hlast] at h
  cases hread : Program.form ⟨last, path⟩ tokens with
  | fail failure rest => simp [hread] at h
  | ok read rest =>
    rw [hread] at h
    cases h
    obtain ⟨stmts, behind, hstmts, hform⟩ := bind_eq_ok_iff.mp hread
    cases hform
    obtain ⟨used, rfl, hspells, hstop⟩ := statementsForm_reads heof hstmts
    -- The reading cannot have consumed the last token, for that one ends the source.
    have hrest : rest ≠ [] := by
      rintro rfl
      rw [List.append_nil] at hlast
      exact hspells.noEnd last (List.mem_of_getLast? hlast) heof
    obtain ⟨eof, more, rfl⟩ := List.exists_cons_of_ne_nil hrest
    exact ⟨used, eof, more, rfl, hstop, rfl, rfl, hspells⟩

/-- **Soundness.** If a token list that ends with the end of the source is read as a program, the
reading stops at the first such token, and the tokens in front of it spell exactly the declarations
returned, names, operators, values and places included, by the rules of the grammar. -/
theorem ofTokens_derives {tokens : List Token} {last : Token} {path : Option String}
    {program : Program} (hlast : tokens.getLast? = some last) (heof : last.kind = .eof)
    (h : Program.ofTokens tokens path = .ok program) :
    ∃ used eof more, tokens = used ++ eof :: more ∧ eof.kind = .eof ∧
      (∀ token ∈ used, token.kind ≠ .eof) ∧
      Program.form ⟨last, path⟩ tokens = .ok program (eof :: more) ∧
      program.path = path ∧ DerivesProgram path used program.statements := by
  obtain ⟨used, eof, more, htokens, hkind, hread, hpath, hspells⟩ := ofTokens_reads hlast heof h
  exact ⟨used, eof, more, htokens, hkind, hspells.noEnd, hread, hpath, hspells.derives⟩

/-- The tokens of `x : [-1, f a]`. -/
def negativeAndCall : List Token :=
  [⟨⟨.ident, "x", .text "x"⟩, ⟨1, 1⟩⟩, ⟨⟨.colon, ":", .nothing⟩, ⟨1, 3⟩⟩,
    ⟨⟨.lbracket, "[", .nothing⟩, ⟨1, 5⟩⟩, ⟨⟨.minus, "-", .nothing⟩, ⟨1, 6⟩⟩,
    ⟨⟨.number, "1", .decimal (.finite false 1 0)⟩, ⟨1, 7⟩⟩, ⟨⟨.comma, ",", .nothing⟩, ⟨1, 8⟩⟩,
    ⟨⟨.ident, "f", .text "f"⟩, ⟨1, 10⟩⟩, ⟨⟨.ident, "a", .text "a"⟩, ⟨1, 12⟩⟩,
    ⟨⟨.rbracket, "]", .nothing⟩, ⟨1, 13⟩⟩, ⟨.newline, ⟨1, 14⟩⟩, ⟨.eof, ⟨2, 1⟩⟩]

/-- The tokens of a list with a negative number and a call are read, and spell what is read. -/
theorem ofTokens_derives_list : ∃ program, Program.ofTokens negativeAndCall none = .ok program ∧
    ∃ used eof more, negativeAndCall = used ++ eof :: more ∧ eof.kind = .eof ∧
      (∀ token ∈ used, token.kind ≠ .eof) ∧
      Program.form ⟨⟨.eof, ⟨2, 1⟩⟩, none⟩ negativeAndCall = .ok program (eof :: more) ∧
      program.path = none ∧ DerivesProgram none used program.statements :=
  ⟨_, rfl, ofTokens_derives rfl rfl rfl⟩

end Slick.Grammar
