import Mathlib.Data.List.Forall2
import Slick.Proofs.Grammar.ProgramCompleteness
import Slick.Proofs.Grammar.ProgramSoundness
import Slick.Proofs.Program.Places

/-!
# Reading does not look at places

Replace the tokens of a program by tokens with the same lexemes at other places, and the program is
read all the same, with its places changed accordingly. The places of line ends and of the marks for
blocks may change at will, for no tree holds them. `Phrase.Carried` says for each category what such
a replacement spells, each rule of the grammar is treated on its own, and `Spells.carried` collects
them. Main statement: `ofTokens_carried`.
-/

namespace Slick

/-- Two tokens with the same lexeme, at places that correspond. It does not matter where a mark of
the layout stands. -/
structure Token.Agrees (m m' : Move) (token token' : Token) : Prop where
  lexeme : token.toLexeme = token'.toLexeme
  place : token.kind.isLayout = false → m.place token.toPosition = m'.place token'.toPosition

/-- Tokens that agree are of one kind. -/
theorem Token.Agrees.kind {m m' : Move} {token token' : Token}
    (h : token.Agrees m m' token') : token.kind = token'.kind := by
  rw [h.lexeme]

/-- Tokens that agree and are no marks are the same up to their places. -/
theorem Token.Agrees.moved {m m' : Move} {token token' : Token}
    (h : token.Agrees m m' token') (hplain : token.kind.isLayout = false) :
    token.moved m = token'.moved m' := by
  rw [Token.moved, Token.moved, h.lexeme, h.place hplain]

/-- Tokens that agree have locations that correspond, if their paths do. -/
theorem Token.Agrees.location {m m' : Move} {path path' : Option String} {token token' : Token}
    (h : token.Agrees m m' token') (hplain : token.kind.isLayout = false)
    (hpath : m.path path = m'.path path') :
    (token.location path).moved m = (token'.location path').moved m' := by
  rw [Token.location_moved, Token.location_moved, h.moved hplain, hpath]

/-- Tokens agree in both directions. -/
theorem Token.Agrees.symm {m m' : Move} {token token' : Token}
    (h : token.Agrees m m' token') : token'.Agrees m' m token :=
  ⟨h.lexeme.symm, fun hplain => (h.place (h.kind ▸ hplain)).symm⟩

/-- The lists hold the same lexemes one by one, at places that correspond. -/
abbrev TokensAgree (m m' : Move) : List Token → List Token → Prop :=
  List.Forall₂ (Token.Agrees m m')

namespace TokensAgree

variable {m m' : Move} {tokens tokens' : List Token}

/-- Agreement of tokens goes both ways. -/
theorem symm (h : TokensAgree m m' tokens tokens') : TokensAgree m' m tokens' tokens :=
  List.Forall₂.flip (h.imp fun _ _ hagrees => hagrees.symm)

private theorem cons_left_iff {token : Token} :
    TokensAgree m m' (token :: tokens) tokens' ↔
      ∃ token' more, tokens' = token' :: more ∧ token.Agrees m m' token' ∧
        TokensAgree m m' tokens more := by
  rw [TokensAgree, List.forall₂_cons_left_iff]
  constructor
  · rintro ⟨token', more, htoken, hmore, rfl⟩
    exact ⟨token', more, rfl, htoken, hmore⟩
  · rintro ⟨token', more, rfl, htoken, hmore⟩
    exact ⟨token', more, htoken, hmore, rfl⟩

/-- What stands in front of a place and what stands behind it is replaced separately. -/
theorem append_left_iff {behind : List Token} :
    TokensAgree m m' (tokens ++ behind) tokens' ↔
      ∃ before' behind', tokens' = before' ++ behind' ∧ TokensAgree m m' tokens before' ∧
        TokensAgree m m' behind behind' := by
  constructor
  · intro h
    induction tokens generalizing tokens' with
    | nil => exact ⟨[], tokens', rfl, .nil, h⟩
    | cons token tokens ih =>
      obtain ⟨token', more, rfl, htoken, hmore⟩ := cons_left_iff.mp h
      obtain ⟨before', behind', rfl, hbefore, hbehind⟩ := ih hmore
      exact ⟨token' :: before', behind', rfl, .cons htoken hbefore, hbehind⟩
  · rintro ⟨before', behind', rfl, hbefore, hbehind⟩
    exact List.rel_append hbefore hbehind

/-- What holds of all kinds in a list holds of those that replace them. -/
theorem forall_kind {P : Kind → Prop} (h : TokensAgree m m' tokens tokens')
    (hall : ∀ token ∈ tokens, P token.kind) : ∀ token ∈ tokens', P token.kind := by
  induction h with
  | nil => simp
  | cons htoken _ ih =>
    rw [List.forall_mem_cons] at hall ⊢
    exact ⟨htoken.kind ▸ hall.1, ih hall.2⟩

/-- Tokens do not agree with none. -/
theorem ne_nil (h : TokensAgree m m' tokens tokens') (hne : tokens ≠ []) : tokens' ≠ [] := by
  rintro rfl
  exact hne (List.forall₂_nil_right_iff.mp h)

/-- The first tokens of lists that agree agree. -/
theorem head {token : Token} (h : TokensAgree m m' tokens tokens')
    (hhead : tokens.head? = some token) :
    ∃ token', tokens'.head? = some token' ∧ token.Agrees m m' token' := by
  cases h with
  | nil => cases hhead
  | cons htoken _ =>
    cases hhead
    exact ⟨_, rfl, htoken⟩

private theorem getLast {token : Token} (h : TokensAgree m m' tokens tokens')
    (hlast : tokens.getLast? = some token) :
    ∃ token', tokens'.getLast? = some token' ∧ token.Agrees m m' token' := by
  rw [List.getLast?_eq_head?_reverse] at hlast ⊢
  exact head (List.rel_reverse h) hlast

/-- Names are moved with their places. -/
theorem names (h : TokensAgree m m' tokens tokens') (hnames : Grammar.Names tokens) :
    tokens.map (Token.moved m) = tokens'.map (Token.moved m') := by
  induction h with
  | nil => rfl
  | cons htoken _ ih =>
    rw [Grammar.Names, List.forall_mem_cons] at hnames
    rw [List.map_cons, List.map_cons, ih hnames.2, htoken.moved (by rw [hnames.1]; rfl)]

end TokensAgree

private theorem Expr.movedFields_keys (m : Move) (fields : List (String × Expr)) :
    (Expr.movedFields m fields).map Prod.fst = fields.map Prod.fst := by
  rw [Expr.movedFields_eq_map, List.map_map]
  rfl

private theorem Expr.ne_nil_of_movedAll {m m' : Move} {es es' : List Expr}
    (h : Expr.movedAll m es = Expr.movedAll m' es') (hne : es ≠ []) : es' ≠ [] := by
  rintro rfl
  rw [Expr.movedAll_eq_map, Expr.movedAll, List.map_eq_nil_iff] at h
  exact hne h

private theorem Arm.ne_nil_of_movedAll {m m' : Move} {arms arms' : List Arm}
    (h : Arm.movedAll m arms = Arm.movedAll m' arms') (hne : arms ≠ []) : arms' ≠ [] := by
  rintro rfl
  rw [Arm.movedAll_eq_map, Arm.movedAll, List.map_eq_nil_iff] at h
  exact hne h

private theorem Expr.keys_of_movedFields {m m' : Move} {fields fields' : List (String × Expr)}
    (h : Expr.movedFields m fields = Expr.movedFields m' fields') :
    fields.map Prod.fst = fields'.map Prod.fst := by
  rw [← Expr.movedFields_keys m, h, Expr.movedFields_keys]

namespace Grammar

variable {m m' : Move} {path path' : Option String}

/-- What agrees with ends of lines are ends of lines. -/
theorem Newlines.carried {tokens tokens' : List Token} (h : Newlines tokens)
    (hagree : TokensAgree m m' tokens tokens') : Newlines tokens' :=
  hagree.forall_kind (P := (· = .newline)) h

/-- What agrees with separators are separators. -/
theorem Separators.carried {tokens tokens' : List Token} (h : Separators tokens)
    (hagree : TokensAgree m m' tokens tokens') : Separators tokens' :=
  hagree.forall_kind (P := fun kind => kind = .newline ∨ kind = .comma) h

/-- What agrees with names are names. -/
theorem Names.carried {tokens tokens' : List Token} (h : Names tokens)
    (hagree : TokensAgree m m' tokens tokens') : Names tokens' :=
  hagree.forall_kind (P := (· = .ident)) h

/-- Items that are kept apart stay apart. -/
theorem Apart.carried {item item' rest rest' : List Token} (h : Apart item rest)
    (hitem : TokensAgree m m' item item') (hrest : TokensAgree m m' rest rest') :
    Apart item' rest' := by
  rcases h with ⟨token, htoken, hkind⟩ | hhead
  · obtain ⟨token', htoken', hagrees⟩ := hitem.getLast htoken
    exact .inl ⟨token', htoken', hagrees.kind ▸ hkind⟩
  · refine .inr fun token' htoken' => ?_
    obtain ⟨token, htoken, hagrees⟩ := hrest.symm.head htoken'
    have hsame : extendsExpression token' = extendsExpression token := by
      simp only [extendsExpression, Level.extends, Level.extendsOperand, Level.isOperator,
        extendsCall, hagrees.lexeme]
    rw [hsame]
    exact hhead token htoken

/-- An operand does not start with a mark of the layout. -/
theorem isLayout_of_startsOperand {token : Token} (h : startsOperand token = true) :
    token.kind.isLayout = false := by
  have hkind := kind_of_startsExpression (startsExpression_of_startsOperand h)
  simp only [List.mem_cons, List.not_mem_nil, or_false] at hkind
  rcases hkind with h | h | h | h | h | h | h | h | h | h <;> rw [h] <;> rfl

/-- No operator is a mark of the layout. -/
theorem Level.isLayout_operator {level : Level} {token : Token}
    (h : level.isOperator token = true) : token.kind.isLayout = false := by
  cases level with
  | disjunction | conjunction => rw [(Lexeme.isWord_iff.mp h).1]; rfl
  | comparison | sum | product =>
    simp only [Level.isOperator] at h
    cases hkind : token.kind <;> rw [hkind] at h <;> first | rfl | cases h

/-- What tokens spell that agree with those of a phrase: a phrase of the same category, whose tree
is the same up to the places. -/
def Phrase.Carried (m m' : Move) (path' : Option String) (tokens' : List Token) : Phrase → Prop
  | .block e => ∃ e', Spells path' Apart tokens' (.block e') ∧ e.moved m = e'.moved m'
  | .expression e => ∃ e', Spells path' Apart tokens' (.expression e') ∧ e.moved m = e'.moved m'
  | .level l e => ∃ e', Spells path' Apart tokens' (.level l e') ∧ e.moved m = e'.moved m'
  | .call e => ∃ e', Spells path' Apart tokens' (.call e') ∧ e.moved m = e'.moved m'
  | .arguments es => ∃ es', Spells path' Apart tokens' (.arguments es') ∧
      Expr.movedAll m es = Expr.movedAll m' es'
  | .access e => ∃ e', Spells path' Apart tokens' (.access e') ∧ e.moved m = e'.moved m'
  | .primary e => ∃ e', Spells path' Apart tokens' (.primary e') ∧ e.moved m = e'.moved m'
  | .elements es => ∃ es', Spells path' Apart tokens' (.elements es') ∧
      Expr.movedAll m es = Expr.movedAll m' es'
  | .fields entries => ∃ entries', Spells path' Apart tokens' (.fields entries') ∧
      Expr.movedFields m entries = Expr.movedFields m' entries'
  | .arm a => ∃ a', Spells path' Apart tokens' (.arm a') ∧ a.moved m = a'.moved m'
  | .arms as => ∃ as', Spells path' Apart tokens' (.arms as') ∧
      Arm.movedAll m as = Arm.movedAll m' as'

private theorem Level.carried_operand {level : Level} {e : Expr} {tokens' : List Token} :
    (level.operand e).Carried m m' path' tokens' ↔
      ∃ e', Spells path' Apart tokens' (level.operand e') ∧ e.moved m = e'.moved m' := by
  cases level <;> rfl

private theorem Level.carried_left {level : Level} {e : Expr} {tokens' : List Token} :
    (level.left e).Carried m m' path' tokens' ↔
      ∃ e', Spells path' Apart tokens' (level.left e') ∧ e.moved m = e'.moved m' := by
  cases level <;> rfl

/-- The first token of an object or argument stands at a place that counts. -/
theorem Spells.start_agrees (hpath : m.path path = m'.path path') {tokens tokens' : List Token}
    {e : Expr} {start : Token}
    (h : Spells path Apart tokens (.access e)) (hstart : tokens.head? = some start)
    (hagree : TokensAgree m m' tokens tokens') :
    ∃ start', tokens'.head? = some start' ∧ (start.location path).moved m =
      (start'.location path').moved m' := by
  obtain ⟨start', hstart', hagrees⟩ := hagree.head hstart
  obtain ⟨token, more, rfl, hstarts⟩ := h.exists_cons rfl
  obtain rfl : token = start := by simpa using hstart
  exact ⟨start', hstart', hagrees.location (isLayout_of_startsOperand hstarts) hpath⟩

/-- **Phrases are carried along.** Tokens that agree with those of a phrase spell a phrase of the
same category with the same tree up to the places. -/
theorem Spells.carried (hpath : m.path path = m'.path path') {tokens tokens' : List Token}
    {phrase : Phrase}
    (h : Spells path Apart tokens phrase) (hagree : TokensAgree m m' tokens tokens') :
    phrase.Carried m m' path' tokens' := by
  induction h generalizing tokens' with
  | inline _ ih =>
    obtain ⟨e', he, hsame⟩ := ih hagree
    exact ⟨e', .inline he, hsame⟩
  | indented hne hlines hindent _ hends hdedent ih =>
    simp only [TokensAgree.cons_left_iff, TokensAgree.append_left_iff,
      List.forall₂_nil_left_iff] at hagree
    obtain ⟨lines', _, rfl, hlinesAgree, indent', _, rfl, hindentAgrees, inner', _, rfl, hinner,
      ends', _, rfl, hendsAgree, dedent', _, rfl, hdedentAgrees, rfl⟩ := hagree
    obtain ⟨e', he, hsame⟩ := ih hinner
    exact ⟨e', .indented (hlinesAgree.ne_nil hne) (hlines.carried hlinesAgree)
      (hindentAgrees.kind ▸ hindent) he (hends.carried hendsAgree)
      (hdedentAgrees.kind ▸ hdedent), hsame⟩
  | function hstart hnames harrow _ ih =>
    simp only [TokensAgree.cons_left_iff, TokensAgree.append_left_iff] at hagree
    obtain ⟨start', _, rfl, hstartAgrees, names', _, rfl, hnamesAgree, arrow', body', rfl,
      harrowAgrees, hbody⟩ := hagree
    obtain ⟨e', he, hsame⟩ := ih hbody
    refine ⟨_, .function (hstartAgrees.kind ▸ hstart) (hnames.carried hnamesAgree)
      (harrowAgrees.kind ▸ harrow) he, ?_⟩
    rw [Expr.moved, Expr.moved, hnamesAgree.names hnames, hsame,
      hstartAgrees.location (by rw [hstart]; rfl) hpath]
  | conditional hif _ hthen _ hlines helse _ ihc iht ihe =>
    simp only [TokensAgree.cons_left_iff, TokensAgree.append_left_iff] at hagree
    obtain ⟨start', _, rfl, hstartAgrees, condition', _, rfl, hcondition, thenWord', _, rfl,
      hthenAgrees, thenPart', _, rfl, hthenPart, lines', _, rfl, hlinesAgree, elseWord',
      elsePart', rfl, helseAgrees, helsePart⟩ := hagree
    obtain ⟨c', hc, hsamec⟩ := ihc hcondition
    obtain ⟨t', ht, hsamet⟩ := iht hthenPart
    obtain ⟨e', he, hsamee⟩ := ihe helsePart
    refine ⟨_, .conditional (hstartAgrees.lexeme ▸ hif) hc (hthenAgrees.lexeme ▸ hthen) ht
      (hlines.carried hlinesAgree) (helseAgrees.lexeme ▸ helse) he, ?_⟩
    have hplain := (Lexeme.isWord_iff.mp hif).1
    rw [Expr.moved, Expr.moved, hsamec, hsamet, hsamee,
      hstartAgrees.location (by rw [hplain]; rfl) hpath]
  | select hcase _ hof hne hlines hindent _ harms hdedent ihs iharms =>
    simp only [TokensAgree.cons_left_iff, TokensAgree.append_left_iff,
      List.forall₂_nil_left_iff] at hagree
    obtain ⟨start', _, rfl, hstartAgrees, scrutinee', _, rfl, hscrutinee, ofWord', _, rfl,
      hofAgrees, lines', _, rfl, hlinesAgree, indent', _, rfl, hindentAgrees, armTokens', _, rfl,
      harmTokens, dedent', _, rfl, hdedentAgrees, rfl⟩ := hagree
    obtain ⟨s', hs, hsames⟩ := ihs hscrutinee
    obtain ⟨arms', harms', hsamearms⟩ := iharms harmTokens
    refine ⟨_, .select (hstartAgrees.lexeme ▸ hcase) hs (hofAgrees.lexeme ▸ hof)
      (hlinesAgree.ne_nil hne) (hlines.carried hlinesAgree) (hindentAgrees.kind ▸ hindent)
      harms' (Arm.ne_nil_of_movedAll hsamearms harms) (hdedentAgrees.kind ▸ hdedent), ?_⟩
    have hplain := (Lexeme.isWord_iff.mp hcase).1
    rw [Expr.moved, Expr.moved, hsames, hsamearms,
      hstartAgrees.location (by rw [hplain]; rfl) hpath]
  | operators _ ih =>
    obtain ⟨e', he, hsame⟩ := ih hagree
    exact ⟨e', .operators he, hsame⟩
  | operand _ ih =>
    obtain ⟨e', he, hsame⟩ := Level.carried_operand.mp (ih hagree)
    exact ⟨e', .operand he, hsame⟩
  | operation _ hoperator _ ihleft ihright =>
    simp only [TokensAgree.cons_left_iff, TokensAgree.append_left_iff] at hagree
    obtain ⟨left', _, rfl, hleft, operator', right', rfl, hoperatorAgrees, hright⟩ := hagree
    obtain ⟨a', ha, hsamea⟩ := Level.carried_left.mp (ihleft hleft)
    obtain ⟨b', hb, hsameb⟩ := Level.carried_operand.mp (ihright hright)
    have hoperator' := Level.isOperator_of_toLexeme hoperator hoperatorAgrees.lexeme.symm
    refine ⟨_, .operation ha hoperator' hb, ?_⟩
    have hplain := Level.isLayout_operator hoperator
    rw [Expr.moved, Expr.moved, hsamea, hsameb, hoperatorAgrees.moved hplain,
      hoperatorAgrees.location hplain hpath]
  | callee _ ih =>
    obtain ⟨e', he, hsame⟩ := ih hagree
    exact ⟨e', .callee he, hsame⟩
  | call he hstart _ hne ihcallee ihrest =>
    simp only [TokensAgree.append_left_iff] at hagree
    obtain ⟨callee', rest', rfl, hcallee, hrest⟩ := hagree
    obtain ⟨start', hstart', hplace⟩ := he.start_agrees hpath hstart hcallee
    obtain ⟨e', he', hsame⟩ := ihcallee hcallee
    obtain ⟨es', hes, hsamees⟩ := ihrest hrest
    refine ⟨_, .call he' hstart' hes (Expr.ne_nil_of_movedAll hsamees hne), ?_⟩
    rw [Expr.moved, Expr.moved, hsame, hsamees, hplace]
  | noArguments =>
    obtain rfl := List.forall₂_nil_left_iff.mp hagree
    exact ⟨[], .noArguments, rfl⟩
  | argument _ hminus _ ihfirst ihrest =>
    simp only [TokensAgree.append_left_iff] at hagree
    obtain ⟨first', rest', rfl, hfirst, hrest⟩ := hagree
    obtain ⟨e', he, hsame⟩ := ihfirst hfirst
    obtain ⟨es', hes, hsamees⟩ := ihrest hrest
    refine ⟨e' :: es', .argument he (fun token' htoken' => ?_) hes, ?_⟩
    · obtain ⟨token, htoken, hagrees⟩ := hfirst.symm.head htoken'
      rw [hagrees.kind]
      exact hminus token htoken
    · rw [Expr.movedAll, Expr.movedAll, hsame, hsamees]
  | object _ ih =>
    obtain ⟨e', he, hsame⟩ := ih hagree
    exact ⟨e', .object he, hsame⟩
  | get he hstart hdot hname ih =>
    simp only [TokensAgree.cons_left_iff, TokensAgree.append_left_iff,
      List.forall₂_nil_left_iff] at hagree
    obtain ⟨object', _, rfl, hobject, dot', _, rfl, hdotAgrees, name', _, rfl, hnameAgrees,
      rfl⟩ := hagree
    obtain ⟨start', hstart', hplace⟩ := he.start_agrees hpath hstart hobject
    obtain ⟨e', he', hsame⟩ := ih hobject
    refine ⟨_, .get he' hstart' (hdotAgrees.kind ▸ hdot) (hnameAgrees.kind ▸ hname), ?_⟩
    rw [Expr.moved, Expr.moved, hsame, hnameAgrees.moved (by rw [hname]; rfl), hplace]
  | @literal token htoken =>
    simp only [TokensAgree.cons_left_iff, List.forall₂_nil_left_iff] at hagree
    obtain ⟨token', _, rfl, hagrees, rfl⟩ := hagree
    refine ⟨_, .literal (hagrees.lexeme ▸ htoken), ?_⟩
    have hstarts : startsOperand token = true := by
      rcases htoken with h | h | h <;> simp [startsOperand, h, Kind.startsArgument]
    rw [Expr.moved, Expr.moved, hagrees.lexeme,
      hagrees.location (isLayout_of_startsOperand hstarts) hpath]
  | negative hminus hnumber hvalue =>
    simp only [TokensAgree.cons_left_iff, List.forall₂_nil_left_iff] at hagree
    obtain ⟨minus', _, rfl, hminusAgrees, number', _, rfl, hnumberAgrees, rfl⟩ := hagree
    refine ⟨_, .negative (hminusAgrees.kind ▸ hminus) (hnumberAgrees.kind ▸ hnumber)
      (hnumberAgrees.lexeme ▸ hvalue), ?_⟩
    rw [Expr.moved, Expr.moved, hminusAgrees.location (by rw [hminus]; rfl) hpath]
  | @reference name hname =>
    simp only [TokensAgree.cons_left_iff, List.forall₂_nil_left_iff] at hagree
    obtain ⟨name', _, rfl, hagrees, rfl⟩ := hagree
    refine ⟨_, .reference (hagrees.kind ▸ hname), ?_⟩
    have hplain : name.kind.isLayout = false := by
      rcases hname with h | h <;> rw [h] <;> rfl
    rw [Expr.moved, Expr.moved, hagrees.moved hplain, hagrees.location hplain hpath]
  | grouping hopener hbefore _ hbehind hcloser ih =>
    simp only [TokensAgree.cons_left_iff, TokensAgree.append_left_iff,
      List.forall₂_nil_left_iff] at hagree
    obtain ⟨opener', _, rfl, hopenerAgrees, before', _, rfl, hbeforeAgree, inner', _, rfl, hinner,
      behind', _, rfl, hbehindAgree, closer', _, rfl, hcloserAgrees, rfl⟩ := hagree
    obtain ⟨e', he, hsame⟩ := ih hinner
    refine ⟨_, .grouping (hopenerAgrees.kind ▸ hopener) (hbefore.carried hbeforeAgree) he
      (hbehind.carried hbehindAgree) (hcloserAgrees.kind ▸ hcloser), ?_⟩
    rw [Expr.moved, Expr.moved, hsame, hopenerAgrees.location (by rw [hopener]; rfl) hpath]
  | list hopener hseparators _ hcloser ih =>
    simp only [TokensAgree.cons_left_iff, TokensAgree.append_left_iff,
      List.forall₂_nil_left_iff] at hagree
    obtain ⟨opener', _, rfl, hopenerAgrees, separators', _, rfl, hseparatorsAgree, items', _, rfl,
      hitems, closer', _, rfl, hcloserAgrees, rfl⟩ := hagree
    obtain ⟨es', hes, hsame⟩ := ih hitems
    refine ⟨_, .list (hopenerAgrees.kind ▸ hopener) (hseparators.carried hseparatorsAgree)
      hes (hcloserAgrees.kind ▸ hcloser), ?_⟩
    rw [Expr.moved, Expr.moved, hsame, hopenerAgrees.location (by rw [hopener]; rfl) hpath]
  | record hopener hlines _ hkeys hcloser ih =>
    simp only [TokensAgree.cons_left_iff, TokensAgree.append_left_iff,
      List.forall₂_nil_left_iff] at hagree
    obtain ⟨opener', _, rfl, hopenerAgrees, lines', _, rfl, hlinesAgree, items', _, rfl, hitems,
      closer', _, rfl, hcloserAgrees, rfl⟩ := hagree
    obtain ⟨fields', hfields, hsame⟩ := ih hitems
    refine ⟨_, .record (hopenerAgrees.kind ▸ hopener) (hlines.carried hlinesAgree) hfields
      (Expr.keys_of_movedFields hsame ▸ hkeys) (hcloserAgrees.kind ▸ hcloser), ?_⟩
    rw [Expr.moved, Expr.moved, hsame, hopenerAgrees.location (by rw [hopener]; rfl) hpath]
  | update hopener hlines _ hpipe hseparators _ hkeys hcloser ihtarget ihitems =>
    simp only [TokensAgree.cons_left_iff, TokensAgree.append_left_iff,
      List.forall₂_nil_left_iff] at hagree
    obtain ⟨opener', _, rfl, hopenerAgrees, lines', _, rfl, hlinesAgree, target', _, rfl, htarget,
      pipe', _, rfl, hpipeAgrees, separators', _, rfl, hseparatorsAgree, items', _, rfl, hitems,
      closer', _, rfl, hcloserAgrees, rfl⟩ := hagree
    obtain ⟨e', he, hsamee⟩ := ihtarget htarget
    obtain ⟨fields', hfields, hsame⟩ := ihitems hitems
    refine ⟨_, .update (hopenerAgrees.kind ▸ hopener) (hlines.carried hlinesAgree) he
      (hpipeAgrees.kind ▸ hpipe) (hseparators.carried hseparatorsAgree) hfields
      (Expr.keys_of_movedFields hsame ▸ hkeys) (hcloserAgrees.kind ▸ hcloser), ?_⟩
    rw [Expr.moved, Expr.moved, hsamee, hsame, hopenerAgrees.location (by rw [hopener]; rfl) hpath]
  | noElements =>
    obtain rfl := List.forall₂_nil_left_iff.mp hagree
    exact ⟨[], .noElements, rfl⟩
  | element _ hseparators hapart _ ihfirst ihrest =>
    simp only [TokensAgree.append_left_iff] at hagree
    obtain ⟨first', _, rfl, hfirst, separators', rest', rfl, hseparatorsAgree, hrest⟩ := hagree
    have hapart' := hapart.carried hfirst (List.rel_append hseparatorsAgree hrest)
    obtain ⟨e', he, hsame⟩ := ihfirst hfirst
    obtain ⟨es', hes, hsamees⟩ := ihrest hrest
    refine ⟨e' :: es', .element he (hseparators.carried hseparatorsAgree) hapart' hes, ?_⟩
    rw [Expr.movedAll, Expr.movedAll, hsame, hsamees]
  | noFields =>
    obtain rfl := List.forall₂_nil_left_iff.mp hagree
    exact ⟨[], .noFields, rfl⟩
  | field hkey hcolon _ hseparators hapart _ ihfirst ihrest =>
    simp only [TokensAgree.cons_left_iff, TokensAgree.append_left_iff] at hagree
    obtain ⟨key', _, rfl, hkeyAgrees, colon', _, rfl, hcolonAgrees, first', _, rfl, hfirst,
      separators', rest', rfl, hseparatorsAgree, hrest⟩ := hagree
    have hapart' := hapart.carried hfirst (List.rel_append hseparatorsAgree hrest)
    obtain ⟨e', he, hsame⟩ := ihfirst hfirst
    obtain ⟨fields', hfields, hsamefields⟩ := ihrest hrest
    refine ⟨(key'.text, e') :: fields', .field (hkeyAgrees.kind ▸ hkey)
      (hcolonAgrees.kind ▸ hcolon) he (hseparators.carried hseparatorsAgree) hapart'
      hfields, ?_⟩
    rw [Expr.movedFields, Expr.movedFields, hsame, hsamefields, hkeyAgrees.lexeme]
  | tag hsubtype hnames harrow _ ih =>
    simp only [TokensAgree.cons_left_iff, TokensAgree.append_left_iff] at hagree
    obtain ⟨subtype', _, rfl, hsubtypeAgrees, names', _, rfl, hnamesAgree, arrow', result', rfl,
      harrowAgrees, hresult⟩ := hagree
    obtain ⟨e', he, hsame⟩ := ih hresult
    refine ⟨_, .tag (hsubtypeAgrees.kind ▸ hsubtype) (hnames.carried hnamesAgree)
      (harrowAgrees.kind ▸ harrow) he, ?_⟩
    have hplain : Kind.isLayout _ = false := congrArg Kind.isLayout hsubtype
    rw [Arm.moved, Arm.moved, hnamesAgree.names hnames, hsame, hsubtypeAgrees.moved hplain,
      hsubtypeAgrees.location hplain hpath]
  | value hp hstart hkind harrow _ ihpattern ihresult =>
    simp only [TokensAgree.cons_left_iff, TokensAgree.append_left_iff] at hagree
    obtain ⟨pattern', _, rfl, hpattern, arrow', result', rfl, harrowAgrees, hresult⟩ := hagree
    obtain ⟨start', hstart', hplace⟩ := hp.object.start_agrees hpath hstart hpattern
    obtain ⟨token', htoken', hagrees⟩ := hpattern.head hstart
    obtain rfl : start' = token' := Option.some.inj (hstart'.symm.trans htoken')
    obtain ⟨p', hp', hsamep⟩ := ihpattern hpattern
    obtain ⟨e', he, hsame⟩ := ihresult hresult
    refine ⟨_, .value hp' hstart' (hagrees.kind ▸ hkind) (harrowAgrees.kind ▸ harrow) he, ?_⟩
    rw [Arm.moved, Arm.moved, hsamep, hsame, hplace]
    rfl
  | noArms =>
    obtain rfl := List.forall₂_nil_left_iff.mp hagree
    exact ⟨[], .noArms, rfl⟩
  | nextArm _ hlines hapart _ ihfirst ihrest =>
    simp only [TokensAgree.append_left_iff] at hagree
    obtain ⟨first', _, rfl, hfirst, lines', rest', rfl, hlinesAgree, hrest⟩ := hagree
    have hapart' := hapart.carried hfirst (List.rel_append hlinesAgree hrest)
    obtain ⟨arm', harm, hsame⟩ := ihfirst hfirst
    obtain ⟨arms', harms, hsamearms⟩ := ihrest hrest
    refine ⟨arm' :: arms', .nextArm harm (hlines.carried hlinesAgree) hapart' harms, ?_⟩
    rw [Arm.movedAll, Arm.movedAll, hsame, hsamearms]

/-- A type holds no places. -/
theorem SpellsType.carried {tokens tokens' : List Token} {phrase : TypePhrase}
    (h : SpellsType tokens phrase) (hagree : TokensAgree m m' tokens tokens') :
    SpellsType tokens' phrase := by
  induction h generalizing tokens' with
  | named hname _ ih =>
    obtain ⟨name', rest', rfl, hnameAgrees, hrest⟩ := TokensAgree.cons_left_iff.mp hagree
    rw [hnameAgrees.lexeme]
    rw [IsTypeName, hnameAgrees.kind] at hname
    exact .named hname (ih hrest)
  | parenthesised hopener _ hcloser ih =>
    simp only [TokensAgree.cons_left_iff, TokensAgree.append_left_iff,
      List.forall₂_nil_left_iff] at hagree
    obtain ⟨opener', _, rfl, hopenerAgrees, inner', _, rfl, hinner, closer', _, rfl,
      hcloserAgrees, rfl⟩ := hagree
    exact .parenthesised (hopenerAgrees.kind ▸ hopener) (ih hinner)
      (hcloserAgrees.kind ▸ hcloser)
  | noArguments =>
    obtain rfl := List.forall₂_nil_left_iff.mp hagree
    exact .noArguments
  | nameArgument hname _ ih =>
    obtain ⟨name', rest', rfl, hnameAgrees, hrest⟩ := TokensAgree.cons_left_iff.mp hagree
    rw [hnameAgrees.lexeme]
    rw [IsTypeName, hnameAgrees.kind] at hname
    exact .nameArgument hname (ih hrest)
  | typeArgument hopener _ hcloser _ ihinner ihrest =>
    simp only [TokensAgree.cons_left_iff, TokensAgree.append_left_iff] at hagree
    obtain ⟨opener', _, rfl, hopenerAgrees, inner', _, rfl, hinner, closer', rest', rfl,
      hcloserAgrees, hrest⟩ := hagree
    exact .typeArgument (hopenerAgrees.kind ▸ hopener) (ihinner hinner)
      (hcloserAgrees.kind ▸ hcloser) (ihrest hrest)

/-- Tokens that agree with those of a payload spell the same payload. -/
theorem SpellsPayload.carried {tokens tokens' : List Token} {type : Option TypeExpr}
    (h : SpellsPayload tokens type) (hagree : TokensAgree m m' tokens tokens') :
    SpellsPayload tokens' type := by
  cases h with
  | absent =>
    obtain rfl := List.forall₂_nil_left_iff.mp hagree
    exact .absent
  | present htype => exact .present (htype.carried hagree)

/-- Tokens that agree with those of subtypes spell the same subtypes. -/
theorem SpellsSubtypes.carried {tokens tokens' : List Token}
    {subtypes : List (String × Option TypeExpr)} (h : SpellsSubtypes tokens subtypes)
    (hagree : TokensAgree m m' tokens tokens') : SpellsSubtypes tokens' subtypes := by
  induction h generalizing tokens' with
  | nil =>
    obtain rfl := List.forall₂_nil_left_iff.mp hagree
    exact .nil
  | cons hname hpayload hne hlines _ ih =>
    simp only [TokensAgree.cons_left_iff, TokensAgree.append_left_iff] at hagree
    obtain ⟨name', _, rfl, hnameAgrees, payload', _, rfl, hpayloadAgree, lines', rest', rfl,
      hlinesAgree, hrest⟩ := hagree
    rw [hnameAgrees.lexeme]
    exact .cons (hnameAgrees.kind ▸ hname) (hpayload.carried hpayloadAgree) (hlinesAgree.ne_nil hne)
      (hlines.carried hlinesAgree) (ih hrest)

/-- Tokens that agree with those of a declaration spell the same declaration, up to places. -/
theorem SpellsStmt.carried (hpath : m.path path = m'.path path') {tokens tokens' : List Token}
    {stmt : Stmt}
    (h : SpellsStmt path Apart tokens stmt) (hagree : TokensAgree m m' tokens tokens') :
    ∃ stmt', SpellsStmt path' Apart tokens' stmt' ∧ stmt.moved m = stmt'.moved m' := by
  cases h with
  | @binding name _ _ _ hname hcolon hbody =>
    simp only [TokensAgree.cons_left_iff] at hagree
    obtain ⟨name', _, rfl, hnameAgrees, colon', body', rfl, hcolonAgrees, hbodyAgree⟩ := hagree
    obtain ⟨e', he, hsame⟩ := hbody.carried hpath hbodyAgree
    have hplain : name.kind.isLayout = false := by
      rw [hname]
      rfl
    refine ⟨_, .binding (hnameAgrees.kind ▸ hname) (hcolonAgrees.kind ▸ hcolon) he, ?_⟩
    rw [Stmt.moved, Stmt.moved, hnameAgrees.moved hplain, hsame, hnameAgrees.location hplain hpath]
  | customType hstart hname hcolon hne hlines hindent hbody hkeys hdedent =>
    simp only [TokensAgree.cons_left_iff, TokensAgree.append_left_iff,
      List.forall₂_nil_left_iff] at hagree
    obtain ⟨start', _, rfl, hstartAgrees, name', _, rfl, hnameAgrees, colon', _, rfl, hcolonAgrees,
      lines', _, rfl, hlinesAgree, indent', _, rfl, hindentAgrees, body', _, rfl, hbodyAgree,
      dedent', _, rfl, hdedentAgrees, rfl⟩ := hagree
    refine ⟨_, .customType (hstartAgrees.lexeme ▸ hstart) (hnameAgrees.kind ▸ hname)
      (hcolonAgrees.kind ▸ hcolon) (hlinesAgree.ne_nil hne) (hlines.carried hlinesAgree)
      (hindentAgrees.kind ▸ hindent) (hbody.carried hbodyAgree) hkeys
      (hdedentAgrees.kind ▸ hdedent), ?_⟩
    have hword := (Lexeme.isWord_iff.mp hstart).1
    rw [Stmt.moved, Stmt.moved, hnameAgrees.moved (by rw [hname]; rfl),
      hstartAgrees.location (by rw [hword]; rfl) hpath]

/-- Tokens that agree with those of declarations spell the same declarations, up to places. -/
theorem SpellsStmts.carried (hpath : m.path path = m'.path path') {tokens tokens' : List Token}
    {stmts : List Stmt}
    (h : SpellsStmts path Apart tokens stmts) (hagree : TokensAgree m m' tokens tokens') :
    ∃ stmts', SpellsStmts path' Apart tokens' stmts' ∧
      stmts.map (Stmt.moved m) = stmts'.map (Stmt.moved m') := by
  induction h generalizing tokens' with
  | nil =>
    obtain rfl := List.forall₂_nil_left_iff.mp hagree
    exact ⟨[], .nil, rfl⟩
  | cons hfirst hlines hapart _ ih =>
    simp only [TokensAgree.append_left_iff] at hagree
    obtain ⟨first', _, rfl, hfirstAgree, lines', rest', rfl, hlinesAgree, hrest⟩ := hagree
    have hapart' := hapart.carried hfirstAgree (List.rel_append hlinesAgree hrest)
    obtain ⟨stmt', hstmt, hsame⟩ := hfirst.carried hpath hfirstAgree
    obtain ⟨stmts', hstmts, hsames⟩ := ih hrest
    refine ⟨stmt' :: stmts', .cons hstmt (hlines.carried hlinesAgree) hapart' hstmts, ?_⟩
    rw [List.map_cons, List.map_cons, hsame, hsames]

/-- Tokens that agree with those of a program spell the same program, up to places. -/
theorem SpellsProgram.carried (hpath : m.path path = m'.path path') {tokens tokens' : List Token}
    {stmts : List Stmt}
    (h : SpellsProgram path Apart tokens stmts) (hagree : TokensAgree m m' tokens tokens') :
    ∃ stmts', SpellsProgram path' Apart tokens' stmts' ∧
      stmts.map (Stmt.moved m) = stmts'.map (Stmt.moved m') := by
  obtain ⟨lines, rest, rfl, hlines, hrest⟩ := h
  obtain ⟨lines', rest', rfl, hlinesAgree, hrestAgree⟩ := TokensAgree.append_left_iff.mp hagree
  obtain ⟨stmts', hstmts, hsame⟩ := hrest.carried hpath hrestAgree
  exact ⟨stmts', ⟨lines', rest', rfl, hlines.carried hlinesAgree, hstmts⟩, hsame⟩

/-- **Reading does not look at places.** If a token list that ends with the end of the source is
read as a program, so is every list that agrees with it, and the two programs are the same up to the
places and the path. -/
theorem ofTokens_carried {tokens tokens' : List Token} {last : Token} {program : Program}
    (hpath : m.path path = m'.path path') (hlast : tokens.getLast? = some last)
    (heof : last.kind = .eof) (hagree : TokensAgree m m' tokens tokens')
    (h : Program.ofTokens tokens path = .ok program) :
    ∃ program', Program.ofTokens tokens' path' = .ok program' ∧ program'.path = path' ∧
      program.statements.map (Stmt.moved m) = program'.statements.map (Stmt.moved m') := by
  obtain ⟨used, eof, more, rfl, hend, -, -, hspells⟩ := ofTokens_reads hlast heof h
  obtain ⟨last', hlast', -⟩ := hagree.getLast hlast
  simp only [TokensAgree.cons_left_iff, TokensAgree.append_left_iff] at hagree
  obtain ⟨used', _, rfl, husedAgree, eof', more', rfl, heofAgrees, -⟩ := hagree
  obtain ⟨stmts', hspells', hsame⟩ := hspells.carried hpath husedAgree
  have hread : Program.form ⟨last', path'⟩ (used' ++ eof' :: more') =
      .ok ⟨stmts', path'⟩ (eof' :: more') :=
    SpellsProgram.form_read hspells' (show eof'.kind = .eof from heofAgrees.kind ▸ hend)
  refine ⟨⟨stmts', path'⟩, ?_, rfl, hsame⟩
  simp only [Program.ofTokens, hlast', hread]

/-- Token lists that agree are read as the same program up to the places and the path, or none of
them is read. -/
theorem ofTokens_agree {tokens tokens' : List Token} {last : Token}
    (hpath : m.path path = m'.path path') (hlast : tokens.getLast? = some last)
    (heof : last.kind = .eof) (hagree : TokensAgree m m' tokens tokens') :
    (Program.ofTokens tokens path).toOption.map (Program.moved m) =
      (Program.ofTokens tokens' path').toOption.map (Program.moved m') := by
  obtain ⟨last', hlast', hagrees⟩ := hagree.getLast hlast
  cases hread : Program.ofTokens tokens path with
  | ok p =>
    obtain ⟨-, -, -, -, -, -, hfrom, -⟩ := ofTokens_reads hlast heof hread
    obtain ⟨p', hread', hpath', hsame⟩ := ofTokens_carried hpath hlast heof hagree hread
    simp only [hread', Except.toOption, Option.map_some, Program.moved, hsame, hfrom, hpath',
      hpath]
  | error failure =>
    cases hread' : Program.ofTokens tokens' path' with
    | error failure' => rfl
    | ok p' =>
      obtain ⟨p, hp, -⟩ :=
        ofTokens_carried hpath.symm hlast' (hagrees.kind ▸ heof) hagree.symm hread'
      rw [hread] at hp
      cases hp

end Grammar

end Slick
