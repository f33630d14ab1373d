import Mathlib.Data.List.TakeWhile
import Slick.Expr.Parser
import Slick.Proofs.Grammar.Programs
import Slick.Proofs.Parser.Steps

/-!
# What the readers of expressions accept

Whenever a reading of an expression succeeds, the tokens it has consumed spell its result. The
readings are greedy, and this shows in the spelling: items are kept apart, and the next token does
not extend what was read. Each production is treated on its own, for an arbitrary reading of the
expressions inside it, and `parser_reads` closes the circle.

A list is assumed to end with the end of the source, for behind it the ctx token is found again
and again.
-/

namespace Slick.Grammar

open Slick.Parser

variable {ctx : Context} {path : Option String}

/-- The next token does not extend what stands before it. Dots and comparison operators are let
through: no phrase starts with them, so they can only be refused later on. -/
def Halts (test : Token → Bool) (token : Token) : Prop :=
  test token = true → token.kind = .dot ∨ token.kind.isComparison = true

/-- The tokens of an expression end with a block, or the next token does not extend them. -/
def Ended (used : List Token) (token : Token) : Prop :=
  EndsBlock used ∨ Halts extendsExpression token

/-- Whatever the reading accepts spells the phrase of its result, and the next token meets the
condition. -/
def Reads {α : Type} (ctx : Context) (p : Parser α) (phrase : α → Phrase)
    (ends : List Token → Token → Prop) : Prop :=
  ∀ tokens a rest, p ctx tokens = .ok a rest →
    ∃ used, tokens = used ++ rest ∧ Spells ctx.path Apart used (phrase a) ∧
      ends used (rest.headD ctx.last)

/-- What follows an expression is kept apart from it, unless it starts with a dot or a comparison
operator. -/
theorem Ended.apart {used next rest : List Token} (h : Ended used ((next ++ rest).headD ctx.last))
    (hnext : ∀ token ∈ next.head?, token.kind ≠ .dot ∧ token.kind.isComparison = false) :
    Apart used next := by
  rcases h with hblock | hhalts
  · exact .inl hblock
  · refine .inr fun token htoken => ?_
    obtain ⟨more, rfl⟩ : ∃ more, next = token :: more := by
      cases next with
      | nil => cases htoken
      | cons first more => exact ⟨more, by simpa using htoken⟩
    have hplain := hnext token htoken
    by_contra hextends
    rcases hhalts (by simpa using hextends) with hdot | hcomparison
    · exact hplain.1 hdot
    · rw [List.cons_append, List.headD_cons, hplain.2] at hcomparison
      cases hcomparison

/-- The ends of lines in front of some tokens are ends of lines. -/
theorem newlines_takeWhile (tokens : List Token) :
    Newlines (tokens.takeWhile fun token => token.kind == .newline) := by
  intro token htoken
  simpa using List.mem_takeWhile_imp htoken

private theorem separators_takeWhile (tokens : List Token) :
    Separators (tokens.takeWhile fun token => token.kind == .newline || token.kind == .comma) := by
  intro token htoken
  simpa using List.mem_takeWhile_imp htoken

private theorem names_takeWhile (tokens : List Token) :
    Names (tokens.takeWhile fun token => token.kind == .ident) := by
  intro token htoken
  simpa using List.mem_takeWhile_imp htoken

/-- Tokens that were skipped stand before the rest. -/
theorem eq_append_of_dropWhile {test : Token → Bool} {tokens rest : List Token}
    (h : tokens.dropWhile test = rest) : tokens = tokens.takeWhile test ++ rest := by
  rw [← h, List.takeWhile_append_dropWhile]

/-- The tokens that a block is read from spell the block. -/
theorem block_reads (hlast : ctx.last.kind = .eof) {expr : Parser Expr}
    (hexpr : Reads ctx expr .expression Ended) : Reads ctx (Expr.block expr) .block Ended := by
  intro tokens e rest h
  simp only [Expr.block, peek_bind] at h
  split at h
  · obtain ⟨used, htokens, hspells, hended⟩ := hexpr tokens e rest h
    exact ⟨used, htokens, .inline hspells, hended⟩
  · next hnewline =>
    rw [skipNewlines_bind] at h
    obtain ⟨indent, middle, hindent, h⟩ := bind_eq_ok_iff.mp h
    obtain ⟨inner, behind, hinner, h⟩ := bind_eq_ok_iff.mp h
    rw [skipNewlines_bind] at h
    obtain ⟨dedent, rest', hdedent, h⟩ := bind_eq_ok_iff.mp h
    cases h
    obtain ⟨hbefore, hindentKind, -⟩ := eq_cons_of_expect hlast (by decide) hindent
    obtain ⟨used, rfl, hspells, -⟩ := hexpr _ _ _ hinner
    obtain ⟨hbehind, hdedentKind, -⟩ := eq_cons_of_expect hlast (by decide) hdedent
    have hne : tokens.takeWhile (fun token => token.kind == .newline) ≠ [] := by
      cases tokens with
      | nil => simp [hlast] at hnewline
      | cons token tokens =>
        have hkind : token.kind = .newline := by simpa using hnewline
        simp [hkind]
    have hblock := endsBlock_singleton.mpr hdedentKind
    refine ⟨_, ?_, .indented hne (newlines_takeWhile tokens) hindentKind hspells
      (newlines_takeWhile behind) hdedentKind,
      .inl ((((hblock.append_left _).append_left _).cons _).append_left _)⟩
    conv_lhs => rw [eq_append_of_dropWhile hbefore, eq_append_of_dropWhile hbehind]
    simp

private theorem functionForm_reads (hlast : ctx.last.kind = .eof) {expr : Parser Expr}
    (hexpr : Reads ctx expr .expression Ended) {start : Token} (hstart : start.kind = .fn)
    {tokens rest : List Token} {e : Expr}
    (h : Expr.functionForm expr ctx (start :: tokens) = .ok e rest) :
    ∃ used, start :: tokens = used ++ rest ∧ Spells ctx.path Apart used (.expression e) ∧
      Ended used (rest.headD ctx.last) := by
  simp only [Expr.functionForm, Expr.parameters, advance_bind, takeWhile_bind, List.headD_cons,
    List.tail_cons] at h
  obtain ⟨arrow, middle, harrow, h⟩ := bind_eq_ok_iff.mp h
  obtain ⟨body, rest', hbody, h⟩ := bind_eq_ok_iff.mp h
  cases h
  obtain ⟨hbefore, harrowKind, -⟩ := eq_cons_of_expect hlast (by decide) harrow
  obtain ⟨used, rfl, hspells, hended⟩ := block_reads hlast hexpr _ _ _ hbody
  refine ⟨_, ?_, .function hstart (names_takeWhile tokens) harrowKind hspells, ?_⟩
  · conv_lhs => rw [eq_append_of_dropWhile hbefore]
    simp
  · exact hended.imp (fun hblock => ((hblock.cons _).append_left _).cons _) id

private theorem conditionalForm_reads (hlast : ctx.last.kind = .eof) {expr : Parser Expr}
    (hexpr : Reads ctx expr .expression Ended) {start : Token}
    (hstart : start.isWord "if" = true) {tokens rest : List Token} {e : Expr}
    (h : Expr.conditionalForm expr ctx (start :: tokens) = .ok e rest) :
    ∃ used, start :: tokens = used ++ rest ∧ Spells ctx.path Apart used (.expression e) ∧
      Ended used (rest.headD ctx.last) := by
  simp only [Expr.conditionalForm, advance_bind, List.headD_cons, List.tail_cons] at h
  obtain ⟨condition, middle, hcondition, h⟩ := bind_eq_ok_iff.mp h
  obtain ⟨thenWord, middle₂, hthen, h⟩ := bind_eq_ok_iff.mp h
  obtain ⟨thenBranch, behind, hthenBranch, h⟩ := bind_eq_ok_iff.mp h
  rw [skipNewlines_bind] at h
  obtain ⟨elseWord, middle₃, helse, h⟩ := bind_eq_ok_iff.mp h
  obtain ⟨elseBranch, rest', helseBranch, h⟩ := bind_eq_ok_iff.mp h
  cases h
  obtain ⟨usedCondition, rfl, hconditionSpells, -⟩ := hexpr _ _ _ hcondition
  obtain ⟨rfl, hthenWord⟩ := eq_cons_of_expectWord hlast hthen
  obtain ⟨usedThen, rfl, hthenSpells, -⟩ := block_reads hlast hexpr _ _ _ hthenBranch
  obtain ⟨hbehind, helseWord⟩ := eq_cons_of_expectWord hlast helse
  obtain ⟨usedElse, rfl, helseSpells, hended⟩ := block_reads hlast hexpr _ _ _ helseBranch
  refine ⟨_, ?_, .conditional hstart hconditionSpells hthenWord hthenSpells
    (newlines_takeWhile behind) helseWord helseSpells, ?_⟩
  · conv_lhs => rw [eq_append_of_dropWhile hbehind]
    simp
  · refine hended.imp (fun hblock => ?_) id
    exact ((((hblock.cons _).append_left _).append_left _).cons _).append_left _ |>.cons _

/-- A phrase starts neither with a dot nor with a comparison operator. -/
theorem plain_of_starts {phrase : Phrase} {token : Token} (h : phrase.starts token = true) :
    token.kind ≠ .dot ∧ token.kind.isComparison = false := by
  have hkind := kind_of_starts h
  simp only [List.mem_cons, List.not_mem_nil, or_false] at hkind
  rcases hkind with h | h | h | h | h | h | h | h | h | h | h <;> simp [h, Kind.isComparison]

/-- The first token of a spelling is neither a dot nor a comparison operator. -/
theorem Spells.head_plain {tokens : List Token} {phrase : Phrase}
    (h : Spells path Apart tokens phrase) :
    ∀ token ∈ tokens.head?, token.kind ≠ .dot ∧ token.kind.isComparison = false := by
  intro token htoken
  rcases h.starts with ⟨_, rfl⟩ | ⟨first, more, rfl, hstarts⟩
  · cases htoken
  · obtain rfl : first = token := by simpa using htoken
    exact plain_of_starts hstarts

/-- Separators, and another item behind them, may follow an expression that has ended. -/
theorem Ended.apart_separated {used separators next rest : List Token}
    (h : Ended used ((separators ++ (next ++ rest)).headD ctx.last))
    (hseparators : Separators separators)
    (hnext : ∀ token ∈ next.head?, token.kind ≠ .dot ∧ token.kind.isComparison = false) :
    Apart used (separators ++ next) := by
  rw [← List.append_assoc] at h
  refine h.apart fun token htoken => ?_
  cases separators with
  | nil => exact hnext token htoken
  | cons first more =>
    obtain rfl : first = token := by simpa using htoken
    rcases hseparators first (by simp) with hkind | hkind <;> simp [hkind, Kind.isComparison]

/-- A line end in front of line ends is one more of them. -/
theorem Newlines.cons {newline : Token} {tokens : List Token} (h : Newlines tokens)
    (hnewline : newline.kind = .newline) : Newlines (newline :: tokens) := by
  intro token htoken
  rcases List.mem_cons.mp htoken with rfl | htoken
  · exact hnewline
  · exact h token htoken

/-- Line ends are separators. -/
theorem Newlines.separators {tokens : List Token} (h : Newlines tokens) : Separators tokens :=
  fun token htoken => .inl (h token htoken)

/-- The elements of a list are kept apart, and a closing bracket follows them. -/
theorem elements_read {expr : Parser Expr} (hexpr : Reads ctx expr .expression Ended)
    {start : Token} {tokens rest : List Token} {es : List Expr}
    (h : many (fun token _ => token.kind ≠ .rbracket) (do
      let token ← peek
      if token.kind = .eof then refuse .unclosedList start
      else
        let element ← expr
        skipSeparators
        return element) ctx tokens = .ok es rest) :
    ∃ used, tokens = used ++ rest ∧ Spells ctx.path Apart used (.elements es) ∧
      (rest.headD ctx.last).kind = .rbracket := by
  refine many_induct (P := fun tokens es rest => ∃ used, tokens = used ++ rest ∧
    Spells ctx.path Apart used (.elements es) ∧ (rest.headD ctx.last).kind = .rbracket) ?_ ?_ h
  · intro tokens hstop
    exact ⟨[], rfl, .noElements, by simpa using hstop⟩
  · intro tokens first middle others rest _ hitem ih
    obtain ⟨usedRest, hmiddle, hrestSpells, hcloser⟩ := ih
    rw [peek_bind] at hitem
    split at hitem
    · exact absurd hitem (refuse_ne_ok _ _ _)
    · obtain ⟨element, behind, helement, hitem⟩ := bind_eq_ok_iff.mp hitem
      rw [skipSeparators_bind] at hitem
      cases hitem
      obtain ⟨usedFirst, rfl, hfirstSpells, hended⟩ := hexpr _ _ _ helement
      have hbehind := eq_append_of_dropWhile hmiddle
      rw [hbehind] at hended
      have hseparators := separators_takeWhile behind
      refine ⟨_, ?_, .element hfirstSpells hseparators
        (hended.apart_separated hseparators hrestSpells.head_plain) hrestSpells, hcloser⟩
      conv_lhs => rw [hbehind]
      simp

private theorem listForm_reads {expr : Parser Expr} (hlast : ctx.last.kind = .eof)
    (hexpr : Reads ctx expr .expression Ended) {start : Token}
    (hstart : start.kind = .lbracket) {tokens rest : List Token} {e : Expr}
    (h : Expr.listForm expr ctx (start :: tokens) = .ok e rest) :
    ∃ used, start :: tokens = used ++ rest ∧ Spells ctx.path Apart used (.primary e) := by
  simp only [Expr.listForm, advance_bind, skipSeparators_bind, List.headD_cons,
    List.tail_cons] at h
  obtain ⟨elements, middle, helements, h⟩ := bind_eq_ok_iff.mp h
  cases h
  obtain ⟨used, hmiddle, hspells, hcloser⟩ := elements_read hexpr helements
  have hcons := eq_cons_of_kind_ne_eof hlast (by rw [hcloser]; decide)
  rw [hcons] at hmiddle
  refine ⟨_, ?_, .list hstart (separators_takeWhile tokens) hspells hcloser⟩
  conv_lhs => rw [eq_append_of_dropWhile hmiddle]
  simp

/-- The fields of a record are added behind those that are there, under keys of their own, and
a closing brace follows them. -/
theorem fields_fold {expr : Parser Expr} (hlast : ctx.last.kind = .eof)
    (hexpr : Reads ctx expr .expression Ended) {start : Token} {tokens rest : List Token}
    {known entries : Dictionary Expr}
    (h : fold (fun token _ => token.kind ≠ .rbrace) (Expr.field expr start) known ctx tokens =
      .ok entries rest) (hknown : (known.map Prod.fst).Nodup) :
    ∃ used added, tokens = used ++ rest ∧ Spells ctx.path Apart used (.fields added) ∧
      entries = known ++ added ∧ (entries.map Prod.fst).Nodup ∧
      (rest.headD ctx.last).kind = .rbrace := by
  refine fold_induct (P := fun known tokens entries rest => (known.map Prod.fst).Nodup →
    ∃ used added, tokens = used ++ rest ∧ Spells ctx.path Apart used (.fields added) ∧
      entries = known ++ added ∧ (entries.map Prod.fst).Nodup ∧
      (rest.headD ctx.last).kind = .rbrace) ?_ ?_ h hknown
  · intro known tokens hstop hknown
    exact ⟨[], [], rfl, .noFields, by simp, hknown, by simpa using hstop⟩
  · intro known tokens grown middle entries rest _ hfield ih hknown
    simp only [Expr.field, peek_bind] at hfield
    split at hfield
    · exact absurd hfield (refuse_ne_ok _ _ _)
    · obtain ⟨key, middle₁, hkey, hfield⟩ := bind_eq_ok_iff.mp hfield
      split at hfield
      · exact absurd hfield (refuse_ne_ok _ _ _)
      · next hnew =>
        obtain ⟨colon, middle₂, hcolon, hfield⟩ := bind_eq_ok_iff.mp hfield
        obtain ⟨value, behind, hvalue, hfield⟩ := bind_eq_ok_iff.mp hfield
        rw [skipSeparators_bind] at hfield
        cases hfield
        obtain ⟨rfl, hkeyKind, -⟩ := eq_cons_of_expect hlast (by decide) hkey
        obtain ⟨rfl, hcolonKind, -⟩ := eq_cons_of_expect hlast (by decide) hcolon
        obtain ⟨usedValue, rfl, hvalueSpells, hended⟩ := hexpr _ _ _ hvalue
        obtain ⟨usedRest, added, hmiddle, hrestSpells, hentries, hkeys, hcloser⟩ :=
          ih (Dictionary.keys_put_nodup key.text value hknown)
        have hbehind := eq_append_of_dropWhile hmiddle
        rw [hbehind] at hended
        have hseparators := separators_takeWhile behind
        have hapart := hended.apart_separated hseparators hrestSpells.head_plain
        refine ⟨_, (key.text, value) :: added, ?_, .field hkeyKind hcolonKind hvalueSpells
          hseparators hapart hrestSpells, ?_, hkeys, hcloser⟩
        · conv_lhs => rw [hbehind]
          simp
        · rw [hentries, Dictionary.put_of_not_has value (by simpa using hnew)]
          simp

/-- Fields that were read up to the closing brace are spelled by the tokens in front of it, with
keys that are apart. -/
theorem fields_read {expr : Parser Expr} (hlast : ctx.last.kind = .eof)
    (hexpr : Reads ctx expr .expression Ended) {start : Token} {tokens rest : List Token}
    {entries : Dictionary Expr} (h : Expr.fields expr start ctx tokens = .ok entries rest) :
    ∃ separators used closer, tokens = separators ++ (used ++ closer :: rest) ∧
      Separators separators ∧ Spells ctx.path Apart used (.fields entries) ∧
      (entries.map Prod.fst).Nodup ∧ closer.kind = .rbrace ∧
      separators =
        tokens.takeWhile fun token => token.kind == .newline || token.kind == .comma := by
  simp only [Expr.fields, skipSeparators_bind] at h
  obtain ⟨entries', middle, hentries, h⟩ := bind_eq_ok_iff.mp h
  cases h
  obtain ⟨used, added, hmiddle, hspells, heq, hkeys, hcloser⟩ :=
    fields_fold hlast hexpr hentries (by simp)
  obtain rfl : entries = added := by simpa using heq
  have hcons := eq_cons_of_kind_ne_eof hlast (by rw [hcloser]; decide)
  rw [hcons] at hmiddle
  exact ⟨_, used, _, eq_append_of_dropWhile hmiddle, separators_takeWhile tokens, hspells, hkeys,
    hcloser, rfl⟩

private theorem recordForm_reads {expr : Parser Expr} (hlast : ctx.last.kind = .eof)
    (hexpr : Reads ctx expr .expression Ended) {start : Token} (hstart : start.kind = .lbrace)
    {tokens rest : List Token} {e : Expr}
    (h : Expr.recordForm expr ctx (start :: tokens) = .ok e rest) :
    ∃ used, start :: tokens = used ++ rest ∧ Spells ctx.path Apart used (.primary e) := by
  simp only [Expr.recordForm, advance_bind, skipNewlines_bind, peek_bind, peekSecond_bind,
    List.headD_cons, List.tail_cons] at h
  have hlines := newlines_takeWhile tokens
  have htokens := (List.takeWhile_append_dropWhile
    (p := fun token : Token => token.kind == .newline) (l := tokens)).symm
  generalize tokens.takeWhile (fun token => token.kind == .newline) = lines at hlines htokens
  generalize tokens.dropWhile (fun token => token.kind == .newline) = inner at h htokens
  subst htokens
  split at h
  · next hkey =>
    obtain ⟨entries, rest', hentries, h⟩ := bind_eq_ok_iff.mp h
    cases h
    obtain ⟨separators, used, closer, rfl, -, hspells, hkeys, hcloser, hseparators⟩ :=
      fields_read hlast hexpr hentries
    -- The next token is a key or the closing brace, so there was nothing to skip.
    obtain rfl : separators = [] := by
      cases separators with
      | nil => rfl
      | cons first more =>
        have hfirst : first.kind = .newline ∨ first.kind = .comma := by
          have hmem : first ∈ first :: more := by simp
          rw [hseparators] at hmem
          simpa using List.mem_takeWhile_imp hmem
        rcases hfirst with hkind | hkind <;> simp [hkind] at hkey
    refine ⟨_, ?_, .record hstart hlines hspells hkeys hcloser⟩
    simp
  · obtain ⟨target, middle, htarget, h⟩ := bind_eq_ok_iff.mp h
    obtain ⟨pipe, middle₂, hpipe, h⟩ := bind_eq_ok_iff.mp h
    obtain ⟨entries, rest', hentries, h⟩ := bind_eq_ok_iff.mp h
    cases h
    obtain ⟨usedTarget, rfl, htargetSpells, -⟩ := hexpr _ _ _ htarget
    obtain ⟨rfl, hpipeKind, -⟩ := eq_cons_of_expect hlast (by decide) hpipe
    obtain ⟨separators, used, closer, rfl, hseparators, hspells, hkeys, hcloser, -⟩ :=
      fields_read hlast hexpr hentries
    refine ⟨_, ?_, .update hstart hlines htargetSpells hpipeKind hseparators hspells hkeys hcloser⟩
    simp

private theorem groupingForm_reads {expr : Parser Expr} (hlast : ctx.last.kind = .eof)
    (hexpr : Reads ctx expr .expression Ended) {start : Token} (hstart : start.kind = .lparen)
    {tokens rest : List Token} {e : Expr}
    (h : Expr.groupingForm expr ctx (start :: tokens) = .ok e rest) :
    ∃ used, start :: tokens = used ++ rest ∧ Spells ctx.path Apart used (.primary e) := by
  simp only [Expr.groupingForm, advance_bind, skipNewlines_bind, List.headD_cons,
    List.tail_cons] at h
  obtain ⟨inner, behind, hinner, h⟩ := bind_eq_ok_iff.mp h
  rw [skipNewlines_bind] at h
  obtain ⟨closer, rest', hcloser, h⟩ := bind_eq_ok_iff.mp h
  cases h
  obtain ⟨used, hbefore, hspells, -⟩ := hexpr _ _ _ hinner
  obtain ⟨hbehind, hcloserKind, -⟩ := eq_cons_of_expect hlast (by decide) hcloser
  refine ⟨_, ?_, .grouping hstart (newlines_takeWhile tokens) hspells (newlines_takeWhile behind)
    hcloserKind⟩
  conv_lhs => rw [eq_append_of_dropWhile hbefore, eq_append_of_dropWhile hbehind]
  simp

private theorem primary_reads {expr : Parser Expr} (hlast : ctx.last.kind = .eof)
    (hexpr : Reads ctx expr .expression Ended) :
    Reads ctx (Expr.primary expr) .primary fun _ _ => True := by
  intro tokens e rest h
  cases tokens with
  | nil => simp [Expr.primary, Lexeme.isTruth, hlast] at h
  | cons token tokens =>
    simp only [Expr.primary, peek_bind, peekSecond_bind] at h
    split at h
    · next hliteral =>
      cases h
      exact ⟨[token], rfl, .literal hliteral, trivial⟩
    split at h
    · next hnegative =>
      obtain ⟨hminus, hnumber⟩ := hnegative
      obtain ⟨number, more, rfl⟩ : ∃ number more, tokens = number :: more := by
        cases tokens with
        | nil => simp [hlast] at hnumber
        | cons number more => exact ⟨number, more, rfl⟩
      simp only [advance_bind, List.headD_cons, List.tail_cons, Expr.negated] at h
      cases hvalue : number.value.negate with
      | error fault => simp [hvalue, fail, bind_apply] at h
      | ok value =>
        rw [hvalue] at h
        cases h
        exact ⟨[token, number], rfl, .negative hminus hnumber hvalue, trivial⟩
    split at h
    · next hname =>
      cases h
      exact ⟨[token], rfl, .reference hname, trivial⟩
    split at h
    · next hparen =>
      obtain ⟨used, htokens, hspells⟩ := groupingForm_reads hlast hexpr hparen h
      exact ⟨used, htokens, hspells, trivial⟩
    split at h
    · next hbracket =>
      obtain ⟨used, htokens, hspells⟩ := listForm_reads hlast hexpr hbracket h
      exact ⟨used, htokens, hspells, trivial⟩
    split at h
    · next hbrace =>
      obtain ⟨used, htokens, hspells⟩ := recordForm_reads hlast hexpr hbrace h
      exact ⟨used, htokens, hspells, trivial⟩
    · exact absurd h (refuse_ne_ok _ _ _)

private theorem access_reads {expr : Parser Expr} (hlast : ctx.last.kind = .eof)
    (hexpr : Reads ctx expr .expression Ended) :
    Reads ctx (Expr.access expr) .access fun _ _ => True := by
  intro tokens e rest h
  simp only [Expr.access, peek_bind] at h
  obtain ⟨object, middle, hobject, h⟩ := bind_eq_ok_iff.mp h
  obtain ⟨used, rfl, hspells, -⟩ := primary_reads hlast hexpr _ _ _ hobject
  obtain ⟨start, more, rfl, -⟩ := hspells.exists_cons rfl
  -- What has been read so far is an access that starts where the primary expression does.
  have hloop := fold_invariant (I := fun e behind => ∃ used,
    start :: more ++ middle = used ++ behind ∧ Spells ctx.path Apart used (.access e) ∧
      used.head? = some start) ?_ h ⟨start :: more, rfl, .object hspells, rfl⟩
  · obtain ⟨⟨used, htokens, hspells, -⟩, -⟩ := hloop
    exact ⟨used, htokens, hspells, trivial⟩
  · rintro object tokens next behind ⟨used, htokens, hspells, hhead⟩ htest hstep
    simp only [Bool.and_eq_true, beq_iff_eq] at htest
    obtain ⟨hdot, hname⟩ := htest
    have hcons := eq_cons_of_kind_ne_eof hlast (by rw [hdot]; decide)
    have hsecond : tokens.getD 1 ctx.last = tokens.tail.headD ctx.last := by
      rw [hcons]
      cases tokens.tail <;> rfl
    rw [hsecond] at hname
    have hcons₂ := eq_cons_of_kind_ne_eof hlast (by rw [hname]; decide)
    cases hstep
    refine ⟨used ++ [tokens.headD ctx.last, tokens.tail.headD ctx.last], ?_,
      .get hspells hhead hdot hname, by simp [hhead]⟩
    rw [htokens]
    conv_lhs => rw [hcons, hcons₂]
    simp

/-- The arguments of a call do not start with a minus sign, and no argument follows them. -/
theorem arguments_read {expr : Parser Expr} (hlast : ctx.last.kind = .eof)
    (hexpr : Reads ctx expr .expression Ended) {tokens rest : List Token} {es : List Expr}
    (h : many (fun token _ => token.kind.startsArgument || token.isTruth) (Expr.access expr) ctx
      tokens = .ok es rest) :
    ∃ used, tokens = used ++ rest ∧ Spells ctx.path Apart used (.arguments es) ∧
      Halts extendsCall (rest.headD ctx.last) := by
  refine many_induct (P := fun tokens es rest => ∃ used, tokens = used ++ rest ∧
    Spells ctx.path Apart used (.arguments es) ∧ Halts extendsCall (rest.headD ctx.last)) ?_ ?_ h
  · intro tokens hstop
    refine ⟨[], rfl, .noArguments, fun hextends => .inl ?_⟩
    rw [extendsCall, Bool.or_assoc, hstop, Bool.or_false, beq_iff_eq] at hextends
    exact hextends
  · intro tokens first middle others rest htest hitem ih
    obtain ⟨usedRest, rfl, hrestSpells, hhalts⟩ := ih
    obtain ⟨usedFirst, rfl, hfirstSpells, -⟩ := access_reads hlast hexpr _ _ _ hitem
    obtain ⟨start, more, rfl, -⟩ := hfirstSpells.exists_cons rfl
    refine ⟨_, ?_, .argument hfirstSpells ?_ hrestSpells, hhalts⟩
    · simp
    · intro token htoken hminus
      obtain rfl : start = token := by simpa using htoken
      simp [hminus, Kind.startsArgument, Lexeme.isTruth] at htest

private theorem callForm_reads {expr : Parser Expr} (hlast : ctx.last.kind = .eof)
    (hexpr : Reads ctx expr .expression Ended) :
    Reads ctx (Expr.callForm expr) .call fun _ token => Halts extendsCall token := by
  intro tokens e rest h
  simp only [Expr.callForm, peek_bind] at h
  obtain ⟨callee, middle, hcallee, h⟩ := bind_eq_ok_iff.mp h
  obtain ⟨arguments, rest', harguments, h⟩ := bind_eq_ok_iff.mp h
  obtain ⟨usedCallee, rfl, hcalleeSpells, -⟩ := access_reads hlast hexpr _ _ _ hcallee
  obtain ⟨used, rfl, hspells, hhalts⟩ := arguments_read hlast hexpr harguments
  split at h
  · next hempty =>
    cases h
    obtain rfl : arguments = [] := by simpa using hempty
    cases hspells
    exact ⟨usedCallee, rfl, .callee hcalleeSpells, hhalts⟩
  · next hempty =>
    cases h
    obtain ⟨start, more, rfl, -⟩ := hcalleeSpells.exists_cons rfl
    refine ⟨start :: more ++ used, by simp, ?_, hhalts⟩
    exact .call hcalleeSpells rfl hspells (by simpa using hempty)

/-- A phrase of a level is complete where neither its ctx operand nor the level itself goes on. -/
theorem Level.halts_extends {level : Level} {token : Token}
    (hoperand : Halts level.extendsOperand token) (hstop : level.isOperator token = false) :
    Halts level.extends token := by
  intro hextends
  rw [Level.extends, hstop, Bool.or_false] at hextends
  exact hoperand hextends

/-- An operator with its right operand makes a binary expression of what stands before it. -/
theorem operation_reads (hlast : ctx.last.kind = .eof) (level : Level) {operand : Parser Expr}
    (hoperand : Reads ctx operand level.operand fun _ token => Halts level.extendsOperand token)
    {left e : Expr} {tokens rest : List Token}
    (htest : level.isOperator (tokens.headD ctx.last) = true)
    (h : Expr.operation operand left ctx tokens = .ok e rest) :
    ∃ operator used, ∃ right, tokens = operator :: (used ++ rest) ∧
      level.isOperator operator = true ∧ Spells ctx.path Apart used (level.operand right) ∧
      e = .binary left operator right (operator.location ctx.path) ∧
      Halts level.extendsOperand (rest.headD ctx.last) := by
  have hcons := eq_cons_of_kind_ne_eof hlast (Level.kind_ne_eof htest)
  simp only [Expr.operation, advance_bind] at h
  obtain ⟨right, rest', hright, h⟩ := bind_eq_ok_iff.mp h
  cases h
  obtain ⟨used, htail, hspells, hhalts⟩ := hoperand _ _ _ hright
  rw [htail] at hcons
  exact ⟨tokens.headD ctx.last, used, right, hcons, htest, hspells, rfl, hhalts⟩

private theorem chain_reads (hlast : ctx.last.kind = .eof) (level : Level)
    (hlevel : level ≠ .comparison)
    {operand : Parser Expr}
    (hoperand : Reads ctx operand level.operand fun _ token => Halts level.extendsOperand token) :
    Reads ctx (Expr.chain level.isOperator operand) (.level level)
      fun _ token => Halts level.extends token := by
  intro tokens e rest h
  simp only [Expr.chain] at h
  obtain ⟨first, middle, hfirst, h⟩ := bind_eq_ok_iff.mp h
  obtain ⟨usedFirst, htokens, hfirstSpells, hfirstHalts⟩ := hoperand _ _ _ hfirst
  have hleft : level.left = Phrase.level level := by
    cases level <;> first | rfl | exact absurd rfl hlevel
  have hloop := fold_invariant (I := fun e behind => ∃ used, tokens = used ++ behind ∧
    Spells ctx.path Apart used (.level level e) ∧
      Halts level.extendsOperand (behind.headD ctx.last)) ?_ h
    ⟨usedFirst, htokens, .operand hfirstSpells, hfirstHalts⟩
  · obtain ⟨⟨used, htokens, hspells, hhalts⟩, hstop⟩ := hloop
    exact ⟨used, htokens, hspells, Level.halts_extends hhalts hstop⟩
  · rintro left behind next behind' ⟨used, htokens, hspells, -⟩ htest hstep
    obtain ⟨operator, usedRight, right, rfl, hoperator, hright, rfl, hhalts⟩ :=
      operation_reads hlast level hoperand htest hstep
    refine ⟨_, ?_, .operation (hleft ▸ hspells) hoperator hright, hhalts⟩
    rw [htokens]
    simp

private theorem comparison_reads (hlast : ctx.last.kind = .eof) {expr : Parser Expr}
    (hadditive : Reads ctx (Expr.additive expr) (.level .sum)
      fun _ token => Halts Level.sum.extends token) :
    Reads ctx (Expr.comparison expr) (.level .comparison)
      fun _ token => Halts Level.comparison.extends token := by
  intro tokens e rest h
  simp only [Expr.comparison] at h
  obtain ⟨left, middle, hleft, hrest⟩ := bind_eq_ok_iff.mp h
  obtain ⟨used, rfl, hspells, hhalts⟩ := hadditive _ _ _ hleft
  rw [peek_bind] at hrest
  split at hrest
  · next htest =>
    obtain ⟨operator, usedRight, right, rfl, hoperator, hright, rfl, hhaltsRight⟩ :=
      operation_reads hlast .comparison hadditive htest hrest
    refine ⟨used ++ operator :: usedRight, by simp, ?_, ?_⟩
    · exact .operation hspells hoperator hright
    · intro hextends
      rw [Level.extends, Bool.or_eq_true] at hextends
      exact hextends.elim hhaltsRight .inr
  · next htest =>
    cases hrest
    refine ⟨used, rfl, .operand hspells, ?_⟩
    exact Level.halts_extends hhalts (by simpa [Level.isOperator] using htest)

/-- Operators of all levels are read with their operands. -/
theorem disjunction_reads (hlast : ctx.last.kind = .eof) {expr : Parser Expr}
    (hexpr : Reads ctx expr .expression Ended) :
    Reads ctx (Expr.disjunction expr) (.level .disjunction)
      fun _ token => Halts extendsExpression token := by
  have hterm := chain_reads hlast .product (by decide) (callForm_reads hlast hexpr)
  have hadditive := chain_reads hlast .sum (by decide) hterm
  have hcomparison := comparison_reads hlast hadditive
  have hconjunction := chain_reads hlast .conjunction (by decide) hcomparison
  exact chain_reads hlast .disjunction (by decide) hconjunction

private theorem arm_reads {expr : Parser Expr} (hlast : ctx.last.kind = .eof)
    (hexpr : Reads ctx expr .expression Ended) : Reads ctx (Expr.arm expr) .arm Ended := by
  intro tokens arm rest h
  simp only [Expr.arm, peek_bind] at h
  split at h
  · next hsubtype =>
    have hcons := eq_cons_of_kind_ne_eof hlast (by rw [hsubtype]; decide)
    simp only [Expr.parameters, advance_bind, takeWhile_bind] at h
    obtain ⟨arrow, middle, harrow, hrest⟩ := bind_eq_ok_iff.mp h
    obtain ⟨result, rest', hresult, hrest⟩ := bind_eq_ok_iff.mp hrest
    cases hrest
    obtain ⟨hbefore, harrowKind, -⟩ := eq_cons_of_expect hlast (by decide) harrow
    obtain ⟨used, rfl, hspells, hended⟩ := block_reads hlast hexpr _ _ _ hresult
    refine ⟨_, ?_, .tag hsubtype (names_takeWhile tokens.tail) harrowKind hspells, ?_⟩
    · conv_lhs => rw [hcons, eq_append_of_dropWhile hbefore]
      simp
    · exact hended.imp (fun hblock => ((hblock.cons _).append_left _).cons _) id
  · next hsubtype =>
    obtain ⟨pattern, middle, hpattern, hrest⟩ := bind_eq_ok_iff.mp h
    obtain ⟨arrow, middle₂, harrow, hrest⟩ := bind_eq_ok_iff.mp hrest
    obtain ⟨result, rest', hresult, hrest⟩ := bind_eq_ok_iff.mp hrest
    cases hrest
    obtain ⟨usedPattern, rfl, hpatternSpells, -⟩ := primary_reads hlast hexpr _ _ _ hpattern
    obtain ⟨rfl, harrowKind, -⟩ := eq_cons_of_expect hlast (by decide) harrow
    obtain ⟨used, rfl, hspells, hended⟩ := block_reads hlast hexpr _ _ _ hresult
    obtain ⟨start, more, rfl, -⟩ := hpatternSpells.exists_cons rfl
    refine ⟨start :: more ++ arrow :: used, by simp, ?_, ?_⟩
    · exact .value hpatternSpells rfl hsubtype harrowKind hspells
    · exact hended.imp (fun hblock => (hblock.cons _).append_left _) id

/-- The arms of a choice are kept apart, and the end of their block follows them unless the source
ends. -/
theorem arms_read {expr : Parser Expr} (hlast : ctx.last.kind = .eof)
    (hexpr : Reads ctx expr .expression Ended) {tokens rest : List Token} {arms : List Arm}
    (h : many (fun token _ => token.kind ≠ .dedent && token.kind ≠ .eof) (do
      let first ← Expr.arm expr
      skipNewlines
      return first) ctx tokens = .ok arms rest) :
    ∃ used, tokens = used ++ rest ∧ Spells ctx.path Apart used (.arms arms) := by
  refine many_induct (P := fun tokens arms rest => ∃ used, tokens = used ++ rest ∧
    Spells ctx.path Apart used (.arms arms)) ?_ ?_ h
  · intro tokens _
    exact ⟨[], rfl, .noArms⟩
  · intro tokens first middle others rest _ hitem ih
    obtain ⟨usedRest, hmiddle, hrestSpells⟩ := ih
    obtain ⟨arm, behind, harm, hitem⟩ := bind_eq_ok_iff.mp hitem
    rw [skipNewlines_bind] at hitem
    cases hitem
    obtain ⟨usedFirst, rfl, hfirstSpells, hended⟩ := arm_reads hlast hexpr _ _ _ harm
    have hbehind := eq_append_of_dropWhile hmiddle
    rw [hbehind] at hended
    have hlines := newlines_takeWhile behind
    refine ⟨_, ?_, .nextArm hfirstSpells hlines
      (hended.apart_separated hlines.separators hrestSpells.head_plain) hrestSpells⟩
    conv_lhs => rw [hbehind]
    simp

private theorem selectForm_reads {expr : Parser Expr} (hlast : ctx.last.kind = .eof)
    (hexpr : Reads ctx expr .expression Ended) {start : Token}
    (hstart : start.isWord "case" = true) {tokens rest : List Token} {e : Expr}
    (h : Expr.selectForm expr ctx (start :: tokens) = .ok e rest) :
    ∃ used, start :: tokens = used ++ rest ∧ Spells ctx.path Apart used (.expression e) ∧
      Ended used (rest.headD ctx.last) := by
  simp only [Expr.selectForm, advance_bind, List.headD_cons, List.tail_cons] at h
  obtain ⟨scrutinee, middle, hscrutinee, h⟩ := bind_eq_ok_iff.mp h
  obtain ⟨ofWord, middle₂, hof, h⟩ := bind_eq_ok_iff.mp h
  obtain ⟨newline, behind, hnewline, h⟩ := bind_eq_ok_iff.mp h
  rw [skipNewlines_bind] at h
  obtain ⟨indent, middle₃, hindent, h⟩ := bind_eq_ok_iff.mp h
  obtain ⟨arms, middle₄, harms, h⟩ := bind_eq_ok_iff.mp h
  obtain ⟨dedent, rest', hdedent, h⟩ := bind_eq_ok_iff.mp h
  split at h
  · exact absurd h (refuse_ne_ok _ _ _)
  · next hempty =>
    cases h
    obtain ⟨usedScrutinee, rfl, hscrutineeSpells, -⟩ := hexpr _ _ _ hscrutinee
    obtain ⟨rfl, hofWord⟩ := eq_cons_of_expectWord hlast hof
    obtain ⟨rfl, hnewlineKind, -⟩ := eq_cons_of_expect hlast (by decide) hnewline
    obtain ⟨hbehind, hindentKind, -⟩ := eq_cons_of_expect hlast (by decide) hindent
    obtain ⟨usedArms, rfl, harmsSpells⟩ := arms_read hlast hexpr harms
    obtain ⟨rfl, hdedentKind, -⟩ := eq_cons_of_expect hlast (by decide) hdedent
    have hlines := (newlines_takeWhile behind).cons hnewlineKind
    have hblock := endsBlock_singleton.mpr hdedentKind
    refine ⟨_, ?_, .select hstart hscrutineeSpells hofWord (by simp) hlines hindentKind harmsSpells
      (by simpa using hempty) hdedentKind, .inl ?_⟩
    · conv_lhs => rw [eq_append_of_dropWhile hbehind]
      simp
    · exact ((((hblock.append_left _).cons _).append_left _).cons _).append_left _ |>.cons _

/-- One step of the recursion: forms with expressions inside them. -/
theorem form_reads {expr : Parser Expr} (hlast : ctx.last.kind = .eof)
    (hexpr : Reads ctx expr .expression Ended) :
    Reads ctx (Expr.form expr) .expression Ended := by
  intro tokens e rest h
  simp only [Expr.form, peek_bind] at h
  split at h
  · next hfn =>
    have hcons := eq_cons_of_kind_ne_eof hlast (by rw [hfn]; decide)
    rw [hcons] at h ⊢
    exact functionForm_reads hlast hexpr hfn h
  split at h
  · next hif =>
    have hkind := (Lexeme.isWord_iff.mp hif).1
    have hcons := eq_cons_of_kind_ne_eof hlast (by rw [hkind]; decide)
    rw [hcons] at h ⊢
    exact conditionalForm_reads hlast hexpr hif h
  split at h
  · next hcase =>
    have hkind := (Lexeme.isWord_iff.mp hcase).1
    have hcons := eq_cons_of_kind_ne_eof hlast (by rw [hkind]; decide)
    rw [hcons] at h ⊢
    exact selectForm_reads hlast hexpr hcase h
  · obtain ⟨used, htokens, hspells, hhalts⟩ := disjunction_reads hlast hexpr _ _ _ h
    exact ⟨used, htokens, .operators hspells, .inr hhalts⟩

/-- Whatever the reader of expressions accepts is spelled by the tokens it consumes, and the next
token does not extend it. -/
theorem parser_reads (hlast : ctx.last.kind = .eof) : Reads ctx Expr.parser .expression Ended := by
  intro tokens e rest h
  refine fix_induct (P := fun _ tokens e rest => ∃ used, tokens = used ++ rest ∧
    Spells ctx.path Apart used (.expression e) ∧ Ended used (rest.headD ctx.last)) ?_ h
  intro again hagain b tokens e rest hform
  exact form_reads hlast (hagain ()) tokens e rest hform

end Slick.Grammar
