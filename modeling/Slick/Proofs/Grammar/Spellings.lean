import Mathlib.Data.Set.Function
import Slick.Proofs.Expr.Operators
import Slick.Proofs.Grammar.Places
import Slick.Proofs.Line.Spellings

/-!
# Reading does not look at spellings

Five kinds of tokens have two spellings. The grammar asks for their kinds only, so a program stays a
program if some of them are spelled in the other way, and its tree is the same but for the tokens of
its operators. `Spells.respelled` treats each rule of the grammar on its own. Spellings that are
replaced can be put back, so nothing becomes a program by them. Main statement:
`ofTokens_respelled`.
-/

namespace Slick

/-- The second token is the first one, perhaps in another spelling if its kind has two. -/
structure Token.Respells (token token' : Token) : Prop where
  kind : token'.kind = token.kind
  value : token'.value = token.value
  place : token'.toPosition = token.toPosition
  plain : token.kind ∉ Symbol.signKinds → token' = token

namespace Token.Respells

variable {token token' : Token}

/-- A token in another spelling may be spelled back. -/
theorem symm (h : token.Respells token') : token'.Respells token :=
  ⟨h.kind.symm, h.value.symm, h.place.symm, fun hplain => (h.plain (h.kind ▸ hplain)).symm⟩

/-- Another spelling stands at the same location. -/
theorem location_eq (h : token.Respells token') (path : Option String) :
    token'.location path = token.location path := by
  rw [Token.location, Token.location, h.place]

private theorem isWord_eq (h : token.Respells token') (word : String) :
    token'.isWord word = token.isWord word := by
  rw [Lexeme.isWord, Lexeme.isWord, h.kind, h.value]

private theorem isTruth_eq (h : token.Respells token') : token'.isTruth = token.isTruth := by
  rw [Lexeme.isTruth, Lexeme.isTruth, h.kind, h.value]

private theorem isOperator_eq (h : token.Respells token') (level : Grammar.Level) :
    level.isOperator token' = level.isOperator token := by
  cases level <;> simp only [Grammar.Level.isOperator, h.isWord_eq, h.kind]

private theorem extendsExpression_eq (h : token.Respells token') :
    Grammar.extendsExpression token' = Grammar.extendsExpression token := by
  simp only [Grammar.extendsExpression, Grammar.Level.extends, Grammar.Level.extendsOperand,
    Grammar.extendsCall, h.isOperator_eq, h.isTruth_eq, h.kind]

/-- Names have one spelling. -/
theorem name_eq (h : token.Respells token') (hname : token.kind = .ident ∨ token.kind = .uident) :
    token' = token := by
  apply h.plain
  rcases hname with hname | hname <;> rw [hname] <;> decide

end Token.Respells

namespace Grammar

variable {f : Token → Token} {tokens : List Token}

/-- What holds of all kinds in a list holds after respelling. -/
theorem forall_kind_map {P : Kind → Prop} (h : ∀ token ∈ tokens, P token.kind)
    (hf : ∀ token ∈ tokens, token.Respells (f token)) : ∀ token ∈ tokens.map f, P token.kind := by
  intro token' htoken'
  obtain ⟨token, htoken, rfl⟩ := List.mem_map.mp htoken'
  rw [(hf token htoken).kind]
  exact h token htoken

/-- Ends of lines stay such in other spellings. -/
theorem Newlines.respelled (h : Newlines tokens)
    (hf : ∀ token ∈ tokens, token.Respells (f token)) : Newlines (tokens.map f) :=
  forall_kind_map (P := (· = .newline)) h hf

/-- Separators stay such in other spellings. -/
theorem Separators.respelled (h : Separators tokens)
    (hf : ∀ token ∈ tokens, token.Respells (f token)) : Separators (tokens.map f) :=
  forall_kind_map (P := fun kind => kind = .newline ∨ kind = .comma) h hf

/-- Names stay as they are. -/
theorem Names.map_eq (h : Names tokens) (hf : ∀ token ∈ tokens, token.Respells (f token)) :
    tokens.map f = tokens := by
  have hsame : tokens.map f = tokens.map id :=
    List.map_congr_left fun token htoken => (hf token htoken).name_eq (.inl (h token htoken))
  rw [hsame, List.map_id]

/-- The first token is respelled in its place. -/
theorem head_map {start : Token} (hstart : tokens.head? = some start)
    (hf : ∀ token ∈ tokens, token.Respells (f token)) :
    (tokens.map f).head? = some (f start) ∧ start.Respells (f start) := by
  refine ⟨?_, hf start (List.mem_of_mem_head? hstart)⟩
  rw [List.head?_map, hstart, Option.map_some]

/-- What stands apart does so in other spellings. -/
theorem Apart.respelled {item rest : List Token} (h : Apart item rest)
    (hitem : ∀ token ∈ item, token.Respells (f token))
    (hrest : ∀ token ∈ rest, token.Respells (f token)) : Apart (item.map f) (rest.map f) := by
  rcases h with ⟨token, htoken, hkind⟩ | hhead
  · refine .inl ⟨f token, ?_, ?_⟩
    · rw [List.getLast?_map, htoken, Option.map_some]
      rfl
    · rw [(hitem token (List.mem_of_getLast? htoken)).kind, hkind]
  · refine .inr fun token' htoken' => ?_
    rw [List.head?_map] at htoken'
    obtain ⟨token, htoken, rfl⟩ := Option.map_eq_some_iff.mp htoken'
    rw [(hrest token (List.mem_of_mem_head? htoken)).extendsExpression_eq]
    exact hhead token htoken

/-- The phrase with other tokens for its operators. -/
def Phrase.withOperators (f : Token → Token) : Phrase → Phrase
  | .block e => .block (e.withOperators f)
  | .expression e => .expression (e.withOperators f)
  | .level l e => .level l (e.withOperators f)
  | .call e => .call (e.withOperators f)
  | .arguments es => .arguments (Expr.allWithOperators f es)
  | .access e => .access (e.withOperators f)
  | .primary e => .primary (e.withOperators f)
  | .elements es => .elements (Expr.allWithOperators f es)
  | .fields entries => .fields (Expr.fieldsWithOperators f entries)
  | .arm a => .arm (a.withOperators f)
  | .arms as => .arms (Arm.allWithOperators f as)

private theorem Level.withOperators_operand (level : Level) (e : Expr) :
    (level.operand e).withOperators f = level.operand (e.withOperators f) := by
  cases level <;> rfl

private theorem Level.withOperators_left (level : Level) (e : Expr) :
    (level.left e).withOperators f = level.left (e.withOperators f) := by
  cases level <;> rfl

/-- **Phrases are respelled.** Tokens in other spellings spell the same phrase, but for the tokens
of its operators. -/
theorem Spells.respelled {phrase : Phrase} (h : Spells path Apart tokens phrase)
    (hf : ∀ token ∈ tokens, token.Respells (f token)) :
    Spells path Apart (tokens.map f) (phrase.withOperators f) := by
  induction h with
  | inline _ ih => exact .inline (ih hf)
  | indented hne hlines hindent _ hends hdedent ih =>
    simp only [List.forall_mem_cons, List.forall_mem_append] at hf
    obtain ⟨hlinesf, hindentf, hinnerf, hendsf, hdedentf, -⟩ := hf
    simp only [List.map_append, List.map_cons]
    exact .indented (by simpa using hne) (hlines.respelled hlinesf) (hindentf.kind.trans hindent)
      (ih hinnerf) (hends.respelled hendsf) (hdedentf.kind.trans hdedent)
  | function hstart hnames harrow _ ih =>
    simp only [List.forall_mem_cons, List.forall_mem_append] at hf
    obtain ⟨hstartf, hnamesf, harrowf, hbodyf⟩ := hf
    simp only [List.map_append, List.map_cons, hnames.map_eq hnamesf]
    rw [Phrase.withOperators, Expr.withOperators, ← hstartf.location_eq]
    exact .function (hstartf.kind.trans hstart) hnames (harrowf.kind.trans harrow) (ih hbodyf)
  | conditional hif _ hthen _ hlines helse _ ihc iht ihe =>
    simp only [List.forall_mem_cons, List.forall_mem_append] at hf
    obtain ⟨hstartf, hconditionf, hthenf, hthenPartf, hlinesf, helsef, helsePartf⟩ := hf
    simp only [List.map_append, List.map_cons]
    rw [Phrase.withOperators, Expr.withOperators, ← hstartf.location_eq]
    exact .conditional ((hstartf.isWord_eq _).trans hif) (ihc hconditionf)
      ((hthenf.isWord_eq _).trans hthen) (iht hthenPartf) (hlines.respelled hlinesf)
      ((helsef.isWord_eq _).trans helse) (ihe helsePartf)
  | select hcase _ hof hne hlines hindent _ harms hdedent ihs iharms =>
    simp only [List.forall_mem_cons, List.forall_mem_append] at hf
    obtain ⟨hstartf, hscrutineef, hoff, hlinesf, hindentf, harmsf, hdedentf, -⟩ := hf
    simp only [List.map_append, List.map_cons]
    rw [Phrase.withOperators, Expr.withOperators, ← hstartf.location_eq]
    exact .select ((hstartf.isWord_eq _).trans hcase) (ihs hscrutineef)
      ((hoff.isWord_eq _).trans hof) (by simpa using hne) (hlines.respelled hlinesf)
      (hindentf.kind.trans hindent) (iharms harmsf) (Arm.allWithOperators_ne_nil f harms)
      (hdedentf.kind.trans hdedent)
  | operators _ ih => exact .operators (ih hf)
  | operand _ ih =>
    have hoperand := ih hf
    rw [Level.withOperators_operand] at hoperand
    exact .operand hoperand
  | operation _ hoperator _ ihleft ihright =>
    simp only [List.forall_mem_cons, List.forall_mem_append] at hf
    obtain ⟨hleftf, hoperatorf, hrightf⟩ := hf
    have hleft := ihleft hleftf
    have hright := ihright hrightf
    rw [Level.withOperators_left] at hleft
    rw [Level.withOperators_operand] at hright
    simp only [List.map_append, List.map_cons]
    rw [Phrase.withOperators, Expr.withOperators, ← hoperatorf.location_eq]
    exact .operation hleft ((hoperatorf.isOperator_eq _).trans hoperator) hright
  | callee _ ih => exact .callee (ih hf)
  | call _ hstart _ hne ihcallee ihrest =>
    simp only [List.forall_mem_append] at hf
    obtain ⟨hstart', hstartf⟩ := head_map hstart hf.1
    rw [List.map_append, Phrase.withOperators, Expr.withOperators, ← hstartf.location_eq]
    exact .call (ihcallee hf.1) hstart' (ihrest hf.2) (Expr.allWithOperators_ne_nil f hne)
  | noArguments => exact .noArguments
  | @argument first _ _ _ _ hminus _ ihfirst ihrest =>
    simp only [List.forall_mem_append] at hf
    have hminus' : ∀ token ∈ (first.map f).head?, token.kind ≠ .minus := by
      intro token' htoken'
      rw [List.head?_map] at htoken'
      obtain ⟨token, htoken, rfl⟩ := Option.map_eq_some_iff.mp htoken'
      rw [(hf.1 token (List.mem_of_mem_head? htoken)).kind]
      exact hminus token htoken
    rw [List.map_append, Phrase.withOperators, Expr.allWithOperators]
    exact .argument (ihfirst hf.1) hminus' (ihrest hf.2)
  | object _ ih => exact .object (ih hf)
  | get _ hstart hdot hname ih =>
    simp only [List.forall_mem_cons, List.forall_mem_append] at hf
    obtain ⟨hobjectf, hdotf, hnamef, -⟩ := hf
    obtain ⟨hstart', hstartf⟩ := head_map hstart hobjectf
    simp only [List.map_append, List.map_cons, List.map_nil, hnamef.name_eq (.inl hname)]
    rw [Phrase.withOperators, Expr.withOperators, ← hstartf.location_eq]
    exact .get (ih hobjectf) hstart' (hdotf.kind.trans hdot) hname
  | literal htoken =>
    simp only [List.forall_mem_singleton] at hf
    rw [List.map_singleton, Phrase.withOperators, Expr.withOperators, ← hf.value, ← hf.location_eq]
    rw [← hf.kind, ← hf.isTruth_eq] at htoken
    exact .literal htoken
  | negative hminus hnumber hvalue =>
    simp only [List.forall_mem_cons] at hf
    obtain ⟨hminusf, hnumberf, -⟩ := hf
    simp only [List.map_cons, List.map_nil]
    rw [Phrase.withOperators, Expr.withOperators, ← hminusf.location_eq]
    rw [← hnumberf.value] at hvalue
    exact .negative (hminusf.kind.trans hminus) (hnumberf.kind.trans hnumber) hvalue
  | reference hname =>
    simp only [List.forall_mem_singleton] at hf
    rw [List.map_singleton, hf.name_eq hname]
    exact .reference hname
  | grouping hopener hbefore _ hbehind hcloser ih =>
    simp only [List.forall_mem_cons, List.forall_mem_append] at hf
    obtain ⟨hopenerf, hbeforef, hinnerf, hbehindf, hcloserf, -⟩ := hf
    simp only [List.map_append, List.map_cons]
    rw [Phrase.withOperators, Expr.withOperators, ← hopenerf.location_eq]
    exact .grouping (hopenerf.kind.trans hopener) (hbefore.respelled hbeforef) (ih hinnerf)
      (hbehind.respelled hbehindf) (hcloserf.kind.trans hcloser)
  | list hopener hseparators _ hcloser ih =>
    simp only [List.forall_mem_cons, List.forall_mem_append] at hf
    obtain ⟨hopenerf, hseparatorsf, hitemsf, hcloserf, -⟩ := hf
    simp only [List.map_append, List.map_cons]
    rw [Phrase.withOperators, Expr.withOperators, ← hopenerf.location_eq]
    exact .list (hopenerf.kind.trans hopener) (hseparators.respelled hseparatorsf) (ih hitemsf)
      (hcloserf.kind.trans hcloser)
  | record hopener hlines _ hkeys hcloser ih =>
    simp only [List.forall_mem_cons, List.forall_mem_append] at hf
    obtain ⟨hopenerf, hlinesf, hitemsf, hcloserf, -⟩ := hf
    simp only [List.map_append, List.map_cons]
    rw [Phrase.withOperators, Expr.withOperators, ← hopenerf.location_eq]
    exact .record (hopenerf.kind.trans hopener) (hlines.respelled hlinesf) (ih hitemsf)
      (by rwa [Expr.keys_fieldsWithOperators]) (hcloserf.kind.trans hcloser)
  | update hopener hlines _ hpipe hseparators _ hkeys hcloser ihtarget ihitems =>
    simp only [List.forall_mem_cons, List.forall_mem_append] at hf
    obtain ⟨hopenerf, hlinesf, htargetf, hpipef, hseparatorsf, hitemsf, hcloserf, -⟩ := hf
    simp only [List.map_append, List.map_cons]
    rw [Phrase.withOperators, Expr.withOperators, ← hopenerf.location_eq]
    exact .update (hopenerf.kind.trans hopener) (hlines.respelled hlinesf) (ihtarget htargetf)
      (hpipef.kind.trans hpipe) (hseparators.respelled hseparatorsf) (ihitems hitemsf)
      (by rwa [Expr.keys_fieldsWithOperators]) (hcloserf.kind.trans hcloser)
  | noElements => exact .noElements
  | element _ hseparators hapart _ ihfirst ihrest =>
    simp only [List.forall_mem_append] at hf
    obtain ⟨hfirstf, hseparatorsf, hrestf⟩ := hf
    have hapart' := hapart.respelled hfirstf (List.forall_mem_append.mpr ⟨hseparatorsf, hrestf⟩)
    rw [List.map_append] at hapart'
    rw [List.map_append, List.map_append, Phrase.withOperators, Expr.allWithOperators]
    exact .element (ihfirst hfirstf) (hseparators.respelled hseparatorsf) hapart' (ihrest hrestf)
  | noFields => exact .noFields
  | field hkey hcolon _ hseparators hapart _ ihfirst ihrest =>
    simp only [List.forall_mem_cons, List.forall_mem_append] at hf
    obtain ⟨hkeyf, hcolonf, hfirstf, hseparatorsf, hrestf⟩ := hf
    have hapart' := hapart.respelled hfirstf (List.forall_mem_append.mpr ⟨hseparatorsf, hrestf⟩)
    rw [List.map_append] at hapart'
    simp only [List.map_append, List.map_cons, hkeyf.name_eq (.inl hkey)]
    rw [Phrase.withOperators, Expr.fieldsWithOperators]
    exact .field hkey (hcolonf.kind.trans hcolon) (ihfirst hfirstf)
      (hseparators.respelled hseparatorsf) hapart' (ihrest hrestf)
  | tag hsubtype hnames harrow _ ih =>
    simp only [List.forall_mem_cons, List.forall_mem_append] at hf
    obtain ⟨hsubtypef, hnamesf, harrowf, hresultf⟩ := hf
    simp only [List.map_append, List.map_cons, hnames.map_eq hnamesf,
      hsubtypef.name_eq (.inr hsubtype)]
    exact .tag hsubtype hnames (harrowf.kind.trans harrow) (ih hresultf)
  | value _ hstart hkind harrow _ ihpattern ihresult =>
    simp only [List.forall_mem_cons, List.forall_mem_append] at hf
    obtain ⟨hpatternf, harrowf, hresultf⟩ := hf
    obtain ⟨hstart', hstartf⟩ := head_map hstart hpatternf
    simp only [List.map_append, List.map_cons]
    rw [Phrase.withOperators, Arm.withOperators, ← hstartf.location_eq]
    exact .value (ihpattern hpatternf) hstart' (by rwa [hstartf.kind]) (harrowf.kind.trans harrow)
      (ihresult hresultf)
  | noArms => exact .noArms
  | nextArm _ hlines hapart _ ihfirst ihrest =>
    simp only [List.forall_mem_append] at hf
    obtain ⟨hfirstf, hlinesf, hrestf⟩ := hf
    have hapart' := hapart.respelled hfirstf (List.forall_mem_append.mpr ⟨hlinesf, hrestf⟩)
    rw [List.map_append] at hapart'
    rw [List.map_append, List.map_append, Phrase.withOperators, Arm.allWithOperators]
    exact .nextArm (ihfirst hfirstf) (hlines.respelled hlinesf) hapart' (ihrest hrestf)

/-- A type has no tokens with two spellings. -/
theorem SpellsType.plain {phrase : TypePhrase} (h : SpellsType tokens phrase) :
    ∀ token ∈ tokens, token.kind ∉ Symbol.signKinds := by
  have hname : ∀ {token : Token}, IsTypeName token → token.kind ∉ Symbol.signKinds := by
    rintro token (hkind | hkind) <;> rw [hkind] <;> decide
  have hparenthesis : ∀ {token : Token}, token.kind = .lparen ∨ token.kind = .rparen →
      token.kind ∉ Symbol.signKinds := by
    rintro token (hkind | hkind) <;> rw [hkind] <;> decide
  induction h with
  | named hkind _ ih | nameArgument hkind _ ih =>
    rw [List.forall_mem_cons]
    exact ⟨hname hkind, ih⟩
  | parenthesised hopener _ hcloser ih =>
    rw [List.forall_mem_cons, List.forall_mem_append, List.forall_mem_singleton]
    exact ⟨hparenthesis (.inl hopener), ih, hparenthesis (.inr hcloser)⟩
  | noArguments => exact List.forall_mem_nil _
  | typeArgument hopener _ hcloser _ ihinner ihrest =>
    simp only [List.forall_mem_cons, List.forall_mem_append]
    exact ⟨hparenthesis (.inl hopener), ihinner, hparenthesis (.inr hcloser), ihrest⟩

/-- The subtypes of a type have no tokens with two spellings. -/
theorem SpellsSubtypes.plain {subtypes : List (String × Option TypeExpr)}
    (h : SpellsSubtypes tokens subtypes) : ∀ token ∈ tokens, token.kind ∉ Symbol.signKinds := by
  induction h with
  | nil => exact List.forall_mem_nil _
  | @cons name payload lines rest type subtypes hname hpayload _ hlines _ ih =>
    have hpayloadPlain : ∀ token ∈ payload, token.kind ∉ Symbol.signKinds := by
      cases hpayload with
      | absent => exact List.forall_mem_nil _
      | present htype => exact htype.plain
    simp only [List.forall_mem_cons, List.forall_mem_append]
    refine ⟨by rw [hname]; decide, hpayloadPlain, fun token htoken => ?_, ih⟩
    rw [hlines token htoken]
    decide

/-- Declarations are respelled. -/
theorem SpellsStmt.respelled {stmt : Stmt} (h : SpellsStmt path Apart tokens stmt)
    (hf : ∀ token ∈ tokens, token.Respells (f token)) :
    SpellsStmt path Apart (tokens.map f) (stmt.withOperators f) := by
  cases h with
  | binding hname hcolon hbody =>
    simp only [List.forall_mem_cons] at hf
    obtain ⟨hnamef, hcolonf, hbodyf⟩ := hf
    rw [List.map_cons, List.map_cons, hnamef.name_eq (.inl hname)]
    exact .binding hname (hcolonf.kind.trans hcolon) (hbody.respelled hbodyf)
  | @customType start _ _ _ _ _ body _ hstart hname hcolon hne hlines hindent hbody hkeys
      hdedent =>
    simp only [List.forall_mem_cons, List.forall_mem_append] at hf
    obtain ⟨hstartf, hnamef, hcolonf, hlinesf, hindentf, hbodyf, hdedentf, -⟩ := hf
    have hsame : body.map f = body.map id :=
      List.map_congr_left fun token htoken => (hbodyf token htoken).plain (hbody.plain token htoken)
    rw [List.map_id] at hsame
    simp only [List.map_cons, List.map_append, hnamef.name_eq (.inr hname), hsame]
    rw [Stmt.withOperators, ← hstartf.location_eq]
    exact .customType ((hstartf.isWord_eq _).trans hstart) hname (hcolonf.kind.trans hcolon)
      (by simpa using hne) (hlines.respelled hlinesf) (hindentf.kind.trans hindent) hbody hkeys
      (hdedentf.kind.trans hdedent)

/-- Declarations are spelled by their tokens in other spellings, up to operators. -/
theorem SpellsStmts.respelled {stmts : List Stmt} (h : SpellsStmts path Apart tokens stmts)
    (hf : ∀ token ∈ tokens, token.Respells (f token)) :
    SpellsStmts path Apart (tokens.map f) (stmts.map (Stmt.withOperators f)) := by
  induction h with
  | nil => exact .nil
  | cons hfirst hlines hapart _ ih =>
    simp only [List.forall_mem_append] at hf
    obtain ⟨hfirstf, hlinesf, hrestf⟩ := hf
    have hapart' := hapart.respelled hfirstf (List.forall_mem_append.mpr ⟨hlinesf, hrestf⟩)
    rw [List.map_append] at hapart'
    rw [List.map_append, List.map_append, List.map_cons]
    exact .cons (hfirst.respelled hfirstf) (hlines.respelled hlinesf) hapart' (ih hrestf)

/-- A program is spelled by its tokens in other spellings, up to operators. -/
theorem SpellsProgram.respelled {stmts : List Stmt} (h : SpellsProgram path Apart tokens stmts)
    (hf : ∀ token ∈ tokens, token.Respells (f token)) :
    SpellsProgram path Apart (tokens.map f) (stmts.map (Stmt.withOperators f)) := by
  obtain ⟨lines, rest, rfl, hlines, hrest⟩ := h
  rw [List.forall_mem_append] at hf
  exact ⟨lines.map f, rest.map f, List.map_append, hlines.respelled hf.1, hrest.respelled hf.2⟩

/-- A program in other spellings is read as the program with other tokens for its operators. -/
theorem ofTokens_withOperators {last : Token} {path : Option String} {program : Program}
    (hlast : tokens.getLast? = some last) (heof : last.kind = .eof)
    (hf : ∀ token ∈ tokens, token.Respells (f token))
    (h : Program.ofTokens tokens path = .ok program) :
    Program.ofTokens (tokens.map f) path = .ok (program.withOperators f) := by
  obtain ⟨used, eof, more, rfl, hend, -, hpath, hspells⟩ := ofTokens_reads hlast heof h
  simp only [List.forall_mem_append, List.forall_mem_cons] at hf
  obtain ⟨husedf, heoff, -⟩ := hf
  have hread : Program.form ⟨f last, path⟩ (used.map f ++ f eof :: more.map f) =
      .ok ⟨program.statements.map (Stmt.withOperators f), path⟩ (f eof :: more.map f) :=
    SpellsProgram.form_read (hspells.respelled husedf) (heoff.kind.trans hend)
  have hlast' : (used.map f ++ f eof :: more.map f).getLast? = some (f last) := by
    rw [← List.map_cons, ← List.map_append, List.getLast?_map, hlast, Option.map_some]
  rw [List.map_append, List.map_cons]
  simp only [Program.ofTokens, hlast', hread, Program.withOperators, hpath]

/-- **Reading does not look at spellings.** Tokens in other spellings are read if and only if the
tokens are, as the same program but for the tokens of its operators. -/
theorem ofTokens_respelled {last : Token} (hlast : tokens.getLast? = some last)
    (heof : last.kind = .eof) (hf : ∀ token ∈ tokens, token.Respells (f token))
    (hinjective : Set.InjOn f {token | token ∈ tokens}) (path : Option String) :
    (Program.ofTokens (tokens.map f) path).toOption =
      (Program.ofTokens tokens path).toOption.map (Program.withOperators f) := by
  cases hread : Program.ofTokens tokens path with
  | ok program =>
    rw [ofTokens_withOperators hlast heof hf hread]
    rfl
  | error failure =>
    cases hread' : Program.ofTokens (tokens.map f) path with
    | error failure' => rfl
    | ok program' =>
      -- The old spellings can be put back, for no two tokens have become the same.
      let g := Function.invFunOn f {token | token ∈ tokens}
      have hback : ∀ token ∈ tokens, g (f token) = token := hinjective.leftInvOn_invFunOn
      have htokens : (tokens.map f).map g = tokens := by
        rw [List.map_map]
        refine (List.map_congr_left fun token htoken => ?_).trans (List.map_id tokens)
        exact hback token htoken
      have hg : ∀ token ∈ tokens.map f, token.Respells (g token) := by
        intro token' htoken'
        obtain ⟨token, htoken, rfl⟩ := List.mem_map.mp htoken'
        rw [hback token htoken]
        exact (hf token htoken).symm
      have hlast' : (tokens.map f).getLast? = some (f last) := by
        rw [List.getLast?_map, hlast, Option.map_some]
      have heof' : (f last).kind = .eof :=
        ((hf last (List.mem_of_getLast? hlast)).kind).trans heof
      have hold := ofTokens_withOperators hlast' heof' hg hread'
      rw [htokens, hread] at hold
      cases hold

end Grammar

end Slick
