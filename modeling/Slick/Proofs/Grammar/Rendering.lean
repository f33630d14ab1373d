import Slick.Proofs.Expr.Lexemes
import Slick.Proofs.Expr.Places
import Slick.Proofs.Expr.Shape
import Slick.Proofs.Grammar.ProgramCompleteness

/-!
# Normal expressions are read back

Tokens with the lexemes of a normal expression spell it by the grammar, wherever they stand, and
so the reader finds the expression again. Each form of expression is spelled in the category of its
rank; a tighter phrase also is a phrase of every looser category. Main statement:
`normal_read_back`.
-/

namespace Slick.Grammar

open Slick.Parser

private theorem Level.phraseAt_leftRank (level : Level) : phraseAt level.leftRank = level.left := by
  cases level <;> rfl

private theorem Level.phraseAt_succ_rank (level : Level) :
    phraseAt (level.rank + 1) = level.operand := by
  cases level <;> rfl

/-- Wherever tokens with the lexemes stand, they spell a phrase of the category, and its tree is one
of those wanted. -/
def Renders {α : Type} (lexemes : List Lexeme) (phrase : α → Phrase) (wanted : α → Prop) : Prop :=
  ∀ (path : Option String) (tokens : List Token), tokens.map Token.toLexeme = lexemes →
    ∃ a, Spells path Apart tokens (phrase a) ∧ wanted a

/-- Tokens with the lexemes of the expression spell it in the category of the rank. -/
def Spelled (rank : Nat) (e : Expr) : Prop :=
  Renders e.lexemes (phraseAt rank) fun e' => e'.unplaced = e.unplaced

/-- What is spelled in a category is spelled in all looser ones. -/
theorem Spelled.of_le {rank rank' : Nat} {e : Expr} (h : Spelled rank' e) (hle : rank ≤ rank') :
    Spelled rank e := by
  intro path tokens htokens
  obtain ⟨e', hspells, hsame⟩ := h path tokens htokens
  exact ⟨e', hspells.of_rank_le hle, hsame⟩

/-- Whatever is spelled at all is an expression. -/
theorem Spelled.expression {rank : Nat} {e : Expr} (h : Spelled rank e)
    (path : Option String) {tokens : List Token} (htokens : tokens.map Token.toLexeme = e.lexemes) :
    ∃ e', Spells path Apart tokens (.expression e') ∧ e'.unplaced = e.unplaced :=
  h.of_le (Nat.zero_le rank) path tokens htokens

/-- Names are told by their lexemes. -/
theorem Names.of_lexemes {names tokens : List Token} (h : Names names)
    (htokens : tokens.map Token.toLexeme = names.map Token.toLexeme) : Names tokens := by
  intro token htoken
  have hmem : token.toLexeme ∈ names.map Token.toLexeme := by
    rw [← htokens]
    exact List.mem_map_of_mem htoken
  obtain ⟨name, hname, hsame⟩ := List.mem_map.mp hmem
  rw [← hsame]
  exact h name hname

/-- Tokens with the same lexemes are the same without their places. -/
theorem map_unplaced_of_lexemes {tokens tokens' : List Token}
    (h : tokens.map Token.toLexeme = tokens'.map Token.toLexeme) :
    tokens.map Token.unplaced = tokens'.map Token.unplaced := by
  have hfactor : ∀ tokens : List Token,
      tokens.map Token.unplaced =
        (tokens.map Token.toLexeme).map fun lexeme => ⟨lexeme, ⟨0, 0⟩⟩ := by
    intro tokens
    rw [List.map_map]
    rfl
  rw [hfactor tokens, hfactor tokens', h]

private theorem conditional_spelled {c t e : Expr} {location : Location} {rc rt re : Nat}
    (hc : Spelled rc c) (ht : Spelled rt t) (he : Spelled re e) :
    Spelled 0 (.conditional c t e location) := by
  intro path tokens htokens
  rw [Expr.lexemes] at htokens
  obtain ⟨start, tokens, rfl, hstart, htokens⟩ := List.map_eq_cons_iff.mp htokens
  obtain ⟨condition, tokens, rfl, hcondition, htokens⟩ := List.map_eq_append_iff.mp htokens
  obtain ⟨thenWord, tokens, rfl, hthen, htokens⟩ := List.map_eq_cons_iff.mp htokens
  obtain ⟨thenPart, tokens, rfl, hthenPart, htokens⟩ := List.map_eq_append_iff.mp htokens
  obtain ⟨elseWord, elsePart, rfl, helse, helsePart⟩ := List.map_eq_cons_iff.mp htokens
  obtain ⟨c', hspellsC, hsameC⟩ := hc.expression path hcondition
  obtain ⟨t', hspellsT, hsameT⟩ := ht.expression path hthenPart
  obtain ⟨e', hspellsE, hsameE⟩ := he.expression path helsePart
  have hlines : Newlines [] := by simp [Newlines]
  have hif : start.isWord "if" = true := by rw [hstart]; rfl
  have hspells := Spells.conditional hif hspellsC (by rw [hthen]; rfl) (.inline hspellsT) hlines
    (by rw [helse]; rfl) (.inline hspellsE)
  refine ⟨_, hspells, ?_⟩
  simp only [Expr.unplaced, Expr.moved] at hsameC hsameT hsameE ⊢
  rw [hsameC, hsameT, hsameE]
  rfl

private theorem binary_spelled {level : Level} {a b : Expr} {operator : Token} {location : Location}
    (hoperator : level.isOperator operator = true) (ha : Spelled level.leftRank a)
    (hb : Spelled (level.rank + 1) b) : Spelled level.rank (.binary a operator b location) := by
  intro path tokens htokens
  rw [Expr.lexemes] at htokens
  obtain ⟨left, tokens, rfl, hleft, htokens⟩ := List.map_eq_append_iff.mp htokens
  obtain ⟨token, right, rfl, htoken, hright⟩ := List.map_eq_cons_iff.mp htokens
  obtain ⟨a', hspellsA, hsameA⟩ := ha path left hleft
  obtain ⟨b', hspellsB, hsameB⟩ := hb path right hright
  rw [Level.phraseAt_leftRank] at hspellsA
  rw [Level.phraseAt_succ_rank] at hspellsB
  have hsame : token.unplaced = operator.unplaced := Token.unplaced_eq_iff.mpr htoken
  rw [Level.phraseAt_rank]
  refine ⟨_, .operation hspellsA (Level.isOperator_of_toLexeme hoperator htoken) hspellsB, ?_⟩
  simp only [Expr.unplaced, Expr.moved] at hsameA hsameB ⊢
  rw [hsameA, hsameB]
  exact congrArg (fun token => Expr.binary _ token _ _) hsame

private theorem grouping_spelled {e : Expr} {location : Location} {rank : Nat}
    (he : Spelled rank e) :
    Spelled 8 (.grouping e location) := by
  intro path tokens htokens
  rw [Expr.lexemes] at htokens
  obtain ⟨opener, tokens, rfl, hopener, htokens⟩ := List.map_eq_cons_iff.mp htokens
  obtain ⟨inner, tokens, rfl, hinner, htokens⟩ := List.map_eq_append_iff.mp htokens
  obtain ⟨closer, tokens, rfl, hcloser, htokens⟩ := List.map_eq_cons_iff.mp htokens
  obtain rfl := List.map_eq_nil_iff.mp htokens
  obtain ⟨e', hspells, hsame⟩ := he.expression path hinner
  have hlines : Newlines [] := by simp [Newlines]
  have hgrouping := Spells.grouping (by rw [hopener]; rfl) hlines hspells hlines
    (by rw [hcloser]; rfl)
  refine ⟨_, hgrouping, ?_⟩
  simp only [Expr.unplaced, Expr.moved] at hsame ⊢
  rw [hsame]
  rfl

/-- The literals of the language are spelled by their lexemes. -/
theorem literal_spelled {value : Value} {location : Location} (h : value.IsLiteral) :
    Spelled 8 (.literal value location) := by
  -- A literal without a sign is one token that carries its value.
  have single : ∀ {path : Option String} {value : Value} {kind : Kind} {text : String}
      {tokens : List Token},
      tokens.map Token.toLexeme = [⟨kind, text, value⟩] →
      (kind = .number ∨ kind = .text ∨ (Lexeme.mk kind text value).isTruth = true) →
      ∃ e', Spells path Apart tokens (.primary e') ∧
        e'.unplaced = (Expr.literal value location).unplaced := by
    intro path value kind text tokens htokens hkind
    obtain ⟨token, tokens, rfl, htoken, htokens⟩ := List.map_eq_cons_iff.mp htokens
    obtain rfl := List.map_eq_nil_iff.mp htokens
    refine ⟨_, .literal (by rw [htoken]; exact hkind), ?_⟩
    rw [htoken]
    rfl
  intro path tokens htokens
  rw [Expr.lexemes] at htokens
  cases value with
  | bool b => exact single htokens (.inr (.inr rfl))
  | text s => exact single htokens (.inr (.inl rfl))
  | nothing | int _ | list _ | record _ => exact h.elim
  | decimal d =>
    obtain ⟨coefficient, exponent, hd⟩ := h
    simp only [Value.lexemes] at htokens
    split at htokens
    · next hnegative =>
      have hnegate : Decimal.negate .standard d.magnitude = .ok d := by
        rcases hd with rfl | hd
        · cases hnegative
        · exact Decimal.negate_magnitude hd hnegative
      obtain ⟨minus, tokens, rfl, hminus, htokens⟩ := List.map_eq_cons_iff.mp htokens
      obtain ⟨number, tokens, rfl, hnumber, htokens⟩ := List.map_eq_cons_iff.mp htokens
      obtain rfl := List.map_eq_nil_iff.mp htokens
      have hvalue : number.value.negate = .ok (.decimal d) := by
        rw [hnumber, Value.negate, hnegate]
      exact ⟨_, .negative (by rw [hminus]; rfl) (by rw [hnumber]) hvalue, rfl⟩
    · exact single htokens (.inl rfl)

private theorem reference_spelled {name : Token} {location : Location}
    (h : name.kind = .ident ∨ name.kind = .uident) : Spelled 8 (.reference name location) := by
  intro path tokens htokens
  rw [Expr.lexemes] at htokens
  obtain ⟨token, tokens, rfl, htoken, htokens⟩ := List.map_eq_cons_iff.mp htokens
  obtain rfl := List.map_eq_nil_iff.mp htokens
  have hsame : token.unplaced = name.unplaced := Token.unplaced_eq_iff.mpr htoken
  refine ⟨_, .reference (by rw [htoken]; exact h), ?_⟩
  exact congrArg (fun token => Expr.reference token _) hsame

private theorem function_spelled {parameters : List Token} {body : Expr} {location : Location}
    {rank : Nat}
    (hnames : Names parameters) (hbody : Spelled rank body) :
    Spelled 0 (.function parameters body location) := by
  intro path tokens htokens
  rw [Expr.lexemes] at htokens
  obtain ⟨start, tokens, rfl, hstart, htokens⟩ := List.map_eq_cons_iff.mp htokens
  obtain ⟨names, tokens, rfl, hparameters, htokens⟩ := List.map_eq_append_iff.mp htokens
  obtain ⟨arrow, tokens, rfl, harrow, htokens⟩ := List.map_eq_cons_iff.mp htokens
  obtain ⟨body', hspells, hsame⟩ := hbody.expression path htokens
  refine ⟨_, .function (by rw [hstart]; rfl) (hnames.of_lexemes hparameters) (by rw [harrow]; rfl)
    (.inline hspells), ?_⟩
  simp only [Expr.unplaced, Expr.moved] at hsame ⊢
  rw [hsame]
  exact congrArg (fun names => Expr.function names _ _) (map_unplaced_of_lexemes hparameters)

private theorem get_spelled {object : Expr} {name : Token} {location : Location}
    (hobject : Spelled 7 object) (hname : name.kind = .ident) :
    Spelled 7 (.get object name location) := by
  intro path tokens htokens
  rw [Expr.lexemes] at htokens
  obtain ⟨tokens, behind, rfl, hstart, hbehind⟩ := List.map_eq_append_iff.mp htokens
  obtain ⟨dot, behind, rfl, hdot, hbehind⟩ := List.map_eq_cons_iff.mp hbehind
  obtain ⟨token, behind, rfl, htoken, hbehind⟩ := List.map_eq_cons_iff.mp hbehind
  obtain rfl := List.map_eq_nil_iff.mp hbehind
  obtain ⟨object', hspells, hsame⟩ := hobject path tokens hstart
  obtain ⟨start, more, rfl, -⟩ := hspells.exists_cons rfl
  have hsameName : token.unplaced = name.unplaced := Token.unplaced_eq_iff.mpr htoken
  refine ⟨_, .get hspells rfl (by rw [hdot]; rfl) (by rw [htoken]; exact hname), ?_⟩
  simp only [Expr.unplaced, Expr.moved] at hsame ⊢
  rw [hsame]
  exact congrArg (fun token => Expr.get _ token _) hsameName

/-- A comma keeps whatever is in front of it apart from what follows. -/
theorem apart_comma {comma : Token} (h : comma.kind = .comma) (item rest : List Token) :
    Apart item (comma :: rest) := by
  refine .inr fun token htoken => ?_
  obtain rfl : comma = token := by simpa using htoken
  exact extendsExpression_eq_false (by simp [h])

/-- Nothing follows a last item. -/
theorem apart_nil (item : List Token) : Apart item [] := .inr (by simp)

private theorem separators_comma {comma : Token} (h : comma.kind = .comma) :
    Separators [comma] := by
  intro token htoken
  obtain rfl : token = comma := by simpa using htoken
  exact .inr h

private theorem elements_spelled {es : List Expr} (h : ∀ e ∈ es, ∃ rank, Spelled rank e) :
    Renders (Expr.elementLexemes es) .elements
      fun es' => es'.map Expr.unplaced = es.map Expr.unplaced := by
  induction es with
  | nil =>
    intro path tokens htokens
    rw [Expr.elementLexemes] at htokens
    obtain rfl := List.map_eq_nil_iff.mp htokens
    exact ⟨[], .noElements, rfl⟩
  | cons e es ih =>
    obtain ⟨rank, he⟩ := h e (by simp)
    intro path tokens htokens
    cases es with
    | nil =>
      rw [Expr.elementLexemes] at htokens
      obtain ⟨e', hspells, hsame⟩ := he.expression path htokens
      refine ⟨[e'], ?_, List.cons_eq_cons.mpr ⟨hsame, rfl⟩⟩
      have hnone : Separators [] := by simp [Separators]
      simpa using Spells.element hspells hnone (apart_nil tokens) .noElements
    | cons next es =>
      rw [Expr.elementLexemes] at htokens
      obtain ⟨first, tokens, rfl, hfirst, htokens⟩ := List.map_eq_append_iff.mp htokens
      obtain ⟨comma, rest, rfl, hcomma, hrest⟩ := List.map_eq_cons_iff.mp htokens
      obtain ⟨e', hspells, hsame⟩ := he.expression path hfirst
      obtain ⟨es', hspellsRest, hsameRest⟩ :=
        ih (fun e he => h e (List.mem_cons_of_mem _ he)) path rest hrest
      have hkind : comma.kind = .comma := by rw [hcomma]; rfl
      refine ⟨e' :: es', ?_, List.cons_eq_cons.mpr ⟨hsame, hsameRest⟩⟩
      exact Spells.element hspells (separators_comma hkind) (apart_comma hkind _ _) hspellsRest

private theorem list_spelled {es : List Expr} {location : Location}
    (h : ∀ e ∈ es, ∃ rank, Spelled rank e) : Spelled 8 (.list es location) := by
  intro path tokens htokens
  rw [Expr.lexemes] at htokens
  obtain ⟨opener, tokens, rfl, hopener, htokens⟩ := List.map_eq_cons_iff.mp htokens
  obtain ⟨items, tokens, rfl, hitems, htokens⟩ := List.map_eq_append_iff.mp htokens
  obtain ⟨closer, tokens, rfl, hcloser, htokens⟩ := List.map_eq_cons_iff.mp htokens
  obtain rfl := List.map_eq_nil_iff.mp htokens
  obtain ⟨es', hspells, hsame⟩ := elements_spelled h path items hitems
  have hnone : Separators [] := by simp [Separators]
  have hlist := Spells.list (by rw [hopener]; rfl) hnone hspells (by rw [hcloser]; rfl)
  refine ⟨_, hlist, ?_⟩
  simp only [Expr.unplaced, Expr.moved, Expr.movedAll_eq_map] at hsame ⊢
  rw [hsame]
  rfl

private theorem fields_spelled {fields : List (String × Expr)}
    (h : ∀ field ∈ fields, ∃ rank, Spelled rank field.2) :
    Renders (Expr.fieldLexemes fields) .fields fun fields' =>
      fields'.map (Prod.map id Expr.unplaced) = fields.map (Prod.map id Expr.unplaced) := by
  induction fields with
  | nil =>
    intro path tokens htokens
    rw [Expr.fieldLexemes] at htokens
    obtain rfl := List.map_eq_nil_iff.mp htokens
    exact ⟨[], .noFields, rfl⟩
  | cons field fields ih =>
    obtain ⟨rank, he⟩ := h field (by simp)
    obtain ⟨key, e⟩ := field
    intro path tokens htokens
    cases fields with
    | nil =>
      rw [Expr.fieldLexemes] at htokens
      obtain ⟨name, tokens, rfl, hname, htokens⟩ := List.map_eq_cons_iff.mp htokens
      obtain ⟨colon, tokens, rfl, hcolon, htokens⟩ := List.map_eq_cons_iff.mp htokens
      obtain ⟨e', hspells, hsame⟩ := he.expression path htokens
      have hkey : name.text = key := by rw [hname]; rfl
      refine ⟨[(key, e')], ?_, by simp [hsame]⟩
      have hnone : Separators [] := by simp [Separators]
      have hfield := Spells.field (by rw [hname]; rfl) (by rw [hcolon]; rfl) hspells hnone
        (apart_nil tokens) .noFields
      simpa [hkey] using hfield
    | cons next fields =>
      rw [Expr.fieldLexemes] at htokens
      obtain ⟨name, tokens, rfl, hname, htokens⟩ := List.map_eq_cons_iff.mp htokens
      obtain ⟨colon, tokens, rfl, hcolon, htokens⟩ := List.map_eq_cons_iff.mp htokens
      obtain ⟨first, tokens, rfl, hfirst, htokens⟩ := List.map_eq_append_iff.mp htokens
      obtain ⟨comma, rest, rfl, hcomma, hrest⟩ := List.map_eq_cons_iff.mp htokens
      obtain ⟨e', hspells, hsame⟩ := he.expression path hfirst
      obtain ⟨fields', hspellsRest, hsameRest⟩ :=
        ih (fun field hfield => h field (List.mem_cons_of_mem _ hfield)) path rest hrest
      have hkind : comma.kind = .comma := by rw [hcomma]; rfl
      have hkey : name.text = key := by rw [hname]; rfl
      have hfield := Spells.field (by rw [hname]; rfl) (by rw [hcolon]; rfl) hspells
        (separators_comma hkind) (apart_comma hkind _ _) hspellsRest
      exact ⟨_, hfield, List.cons_eq_cons.mpr ⟨Prod.ext hkey hsame, hsameRest⟩⟩

/-- Records that agree without their places have the same keys. -/
theorem keys_eq_of_unplaced {fields fields' : List (String × Expr)}
    (h : fields'.map (Prod.map id Expr.unplaced) = fields.map (Prod.map id Expr.unplaced)) :
    fields'.map Prod.fst = fields.map Prod.fst := by
  have hkeys := congrArg (List.map Prod.fst) h
  rw [List.map_map, List.map_map] at hkeys
  exact hkeys

private theorem record_spelled {fields : List (String × Expr)} {location : Location}
    (hkeys : (fields.map Prod.fst).Nodup) (h : ∀ field ∈ fields, ∃ rank, Spelled rank field.2) :
    Spelled 8 (.record fields location) := by
  intro path tokens htokens
  rw [Expr.lexemes] at htokens
  obtain ⟨opener, tokens, rfl, hopener, htokens⟩ := List.map_eq_cons_iff.mp htokens
  obtain ⟨items, tokens, rfl, hitems, htokens⟩ := List.map_eq_append_iff.mp htokens
  obtain ⟨closer, tokens, rfl, hcloser, htokens⟩ := List.map_eq_cons_iff.mp htokens
  obtain rfl := List.map_eq_nil_iff.mp htokens
  obtain ⟨fields', hspells, hsame⟩ := fields_spelled h path items hitems
  have hlines : Newlines [] := by simp [Newlines]
  have hrecord := Spells.record (by rw [hopener]; rfl) hlines hspells
    (by rwa [keys_eq_of_unplaced hsame]) (by rw [hcloser]; rfl)
  refine ⟨_, hrecord, ?_⟩
  simp only [Expr.unplaced, Expr.moved, Expr.movedFields_eq_map] at hsame ⊢
  rw [hsame]
  rfl

private theorem update_spelled {target : Expr} {fields : List (String × Expr)} {location : Location}
    {rank : Nat} (htarget : Spelled rank target) (hkeys : (fields.map Prod.fst).Nodup)
    (h : ∀ field ∈ fields, ∃ rank, Spelled rank field.2) :
    Spelled 8 (.update target fields location) := by
  intro path tokens htokens
  rw [Expr.lexemes] at htokens
  obtain ⟨opener, tokens, rfl, hopener, htokens⟩ := List.map_eq_cons_iff.mp htokens
  obtain ⟨targetTokens, tokens, rfl, htargetTokens, htokens⟩ := List.map_eq_append_iff.mp htokens
  obtain ⟨pipe, tokens, rfl, hpipe, htokens⟩ := List.map_eq_cons_iff.mp htokens
  obtain ⟨items, tokens, rfl, hitems, htokens⟩ := List.map_eq_append_iff.mp htokens
  obtain ⟨closer, tokens, rfl, hcloser, htokens⟩ := List.map_eq_cons_iff.mp htokens
  obtain rfl := List.map_eq_nil_iff.mp htokens
  obtain ⟨target', hspellsTarget, hsameTarget⟩ := htarget.expression path htargetTokens
  obtain ⟨fields', hspells, hsame⟩ := fields_spelled h path items hitems
  have hlines : Newlines [] := by simp [Newlines]
  have hnone : Separators [] := by simp [Separators]
  have hupdate := Spells.update (by rw [hopener]; rfl) hlines hspellsTarget (by rw [hpipe]; rfl)
    hnone hspells (by rwa [keys_eq_of_unplaced hsame]) (by rw [hcloser]; rfl)
  refine ⟨_, hupdate, ?_⟩
  simp only [Expr.unplaced, Expr.moved, Expr.movedFields_eq_map] at hsame hsameTarget ⊢
  rw [hsame, hsameTarget]
  rfl

private theorem arguments_spelled {es : List Expr} (h : ∀ e ∈ es, Spelled 7 e)
    (hminus : ∀ e ∈ es, ∀ lexeme ∈ e.lexemes.head?, lexeme.kind ≠ .minus) :
    Renders (Expr.argumentLexemes es) .arguments
      fun es' => es'.map Expr.unplaced = es.map Expr.unplaced := by
  induction es with
  | nil =>
    intro path tokens htokens
    rw [Expr.argumentLexemes] at htokens
    obtain rfl := List.map_eq_nil_iff.mp htokens
    exact ⟨[], .noArguments, rfl⟩
  | cons e es ih =>
    intro path tokens htokens
    rw [Expr.argumentLexemes] at htokens
    obtain ⟨first, rest, rfl, hfirst, hrest⟩ := List.map_eq_append_iff.mp htokens
    obtain ⟨e', hspells, hsame⟩ := h e (by simp) path first hfirst
    obtain ⟨es', hspellsRest, hsameRest⟩ := ih (fun e he => h e (List.mem_cons_of_mem _ he))
      (fun e he => hminus e (List.mem_cons_of_mem _ he)) path rest hrest
    refine ⟨_, .argument hspells ?_ hspellsRest, List.cons_eq_cons.mpr ⟨hsame, hsameRest⟩⟩
    intro token htoken
    refine hminus e (by simp) token.toLexeme ?_
    rw [← hfirst, List.head?_map]
    exact Option.mem_map_of_mem _ htoken

private theorem call_spelled {callee : Expr} {es : List Expr} {location : Location}
    (hcallee : Spelled 7 callee) (hne : es ≠ []) (h : ∀ e ∈ es, Spelled 7 e)
    (hminus : ∀ e ∈ es, ∀ lexeme ∈ e.lexemes.head?, lexeme.kind ≠ .minus) :
    Spelled 6 (.call callee es location) := by
  intro path tokens htokens
  rw [Expr.lexemes] at htokens
  obtain ⟨first, rest, rfl, hfirst, hrest⟩ := List.map_eq_append_iff.mp htokens
  obtain ⟨callee', hspells, hsame⟩ := hcallee path first hfirst
  obtain ⟨es', hspellsRest, hsameRest⟩ := arguments_spelled h hminus path rest hrest
  obtain ⟨start, more, rfl, -⟩ := hspells.exists_cons rfl
  have hne' : es' ≠ [] := by
    rintro rfl
    exact hne (List.map_eq_nil_iff.mp hsameRest.symm)
  refine ⟨_, .call hspells rfl hspellsRest hne', ?_⟩
  simp only [Expr.unplaced, Expr.moved, Expr.movedAll_eq_map] at hsame hsameRest ⊢
  rw [hsame, hsameRest]
  rfl

/-- Tokens with the lexemes of the arm spell it. -/
def SpelledArm (arm : Arm) : Prop :=
  Renders arm.lexemes .arm fun arm' => arm'.unplaced = arm.unplaced

private theorem tag_spelled {subtype : Token} {parameters : List Token} {result : Expr}
    {location : Location} {rank : Nat} (hsubtype : subtype.kind = .uident)
    (hnames : Names parameters) (hresult : Spelled rank result) :
    SpelledArm (.tag subtype parameters result location) := by
  intro path tokens htokens
  rw [Arm.lexemes] at htokens
  obtain ⟨start, tokens, rfl, hstart, htokens⟩ := List.map_eq_cons_iff.mp htokens
  obtain ⟨names, tokens, rfl, hparameters, htokens⟩ := List.map_eq_append_iff.mp htokens
  obtain ⟨arrow, tokens, rfl, harrow, htokens⟩ := List.map_eq_cons_iff.mp htokens
  obtain ⟨result', hspells, hsame⟩ := hresult.expression path htokens
  have hsameStart : start.unplaced = subtype.unplaced := Token.unplaced_eq_iff.mpr hstart
  have hsameNames := map_unplaced_of_lexemes hparameters
  refine ⟨_, .tag (by rw [hstart]; exact hsubtype) (hnames.of_lexemes hparameters)
    (by rw [harrow]; rfl) (.inline hspells), ?_⟩
  simp only [Arm.unplaced, Arm.moved, Expr.unplaced, Token.unplaced]
    at hsame hsameStart hsameNames ⊢
  rw [hsame, hsameStart, hsameNames]
  rfl

private theorem value_spelled {pattern result : Expr} {location : Location} {rank : Nat}
    (hpattern : Spelled 8 pattern)
    (hkind : ∀ lexeme ∈ pattern.lexemes.head?, lexeme.kind ≠ .uident)
    (hresult : Spelled rank result) : SpelledArm (.value pattern [] result location) := by
  intro path tokens htokens
  rw [Arm.lexemes] at htokens
  obtain ⟨first, tokens, rfl, hfirst, htokens⟩ := List.map_eq_append_iff.mp htokens
  obtain ⟨arrow, tokens, rfl, harrow, htokens⟩ := List.map_eq_cons_iff.mp htokens
  obtain ⟨pattern', hspellsPattern, hsamePattern⟩ := hpattern path first hfirst
  obtain ⟨result', hspells, hsame⟩ := hresult.expression path htokens
  obtain ⟨start, more, rfl, -⟩ := hspellsPattern.exists_cons rfl
  have hstart : start.kind ≠ .uident := hkind start.toLexeme (by rw [← hfirst]; rfl)
  refine ⟨_, .value hspellsPattern rfl hstart (by rw [harrow]; rfl) (.inline hspells), ?_⟩
  simp only [Arm.unplaced, Arm.moved, Expr.unplaced] at hsame hsamePattern ⊢
  rw [hsame, hsamePattern]
  rfl

/-- The end of a line keeps an arm apart from the next one, and so does the end of a block. -/
theorem endLine_split {lexemes : List Lexeme} {tokens : List Token}
    (h : tokens.map Token.toLexeme = Lexeme.endLine lexemes) :
    ∃ first lines, tokens = first ++ lines ∧ first.map Token.toLexeme = lexemes ∧
      Newlines lines ∧ ∀ rest, Apart first (lines ++ rest) := by
  unfold Lexeme.endLine at h
  split at h
  · next hblock =>
    refine ⟨tokens, [], by simp, h, by simp [Newlines], fun rest => .inl ?_⟩
    obtain ⟨lexeme, hlexeme, hkind⟩ := hblock
    rw [← h, List.getLast?_map, Option.mem_def, Option.map_eq_some_iff] at hlexeme
    obtain ⟨token, htoken, rfl⟩ := hlexeme
    exact ⟨token, htoken, hkind⟩
  · obtain ⟨first, lines, rfl, hfirst, hlines⟩ := List.map_eq_append_iff.mp h
    obtain ⟨newline, lines, rfl, hnewline, hlines⟩ := List.map_eq_cons_iff.mp hlines
    obtain rfl := List.map_eq_nil_iff.mp hlines
    have hkind : newline.kind = .newline := by rw [hnewline]; rfl
    refine ⟨first, [newline], rfl, hfirst, by simpa [Newlines] using hkind, fun rest => .inr ?_⟩
    intro token htoken
    obtain rfl : newline = token := by simpa using htoken
    exact extendsExpression_eq_false (by simp [hkind])

private theorem arms_spelled {arms : List Arm} (h : ∀ arm ∈ arms, SpelledArm arm) :
    Renders (Arm.lexemesAll arms) .arms
      fun arms' => arms'.map Arm.unplaced = arms.map Arm.unplaced := by
  induction arms with
  | nil =>
    intro path tokens htokens
    rw [Arm.lexemesAll] at htokens
    obtain rfl := List.map_eq_nil_iff.mp htokens
    exact ⟨[], .noArms, rfl⟩
  | cons arm arms ih =>
    intro path tokens htokens
    rw [Arm.lexemesAll] at htokens
    obtain ⟨ended, rest, rfl, hended, hrest⟩ := List.map_eq_append_iff.mp htokens
    obtain ⟨first, lines, rfl, hfirst, hlines, hapart⟩ := endLine_split hended
    obtain ⟨arm', hspells, hsame⟩ := h arm (by simp) path first hfirst
    obtain ⟨arms', hspellsRest, hsameRest⟩ :=
      ih (fun arm harm => h arm (List.mem_cons_of_mem _ harm)) path rest hrest
    rw [List.append_assoc]
    exact ⟨_, .nextArm hspells hlines (hapart rest) hspellsRest,
      List.cons_eq_cons.mpr ⟨hsame, hsameRest⟩⟩

private theorem select_spelled {scrutinee : Expr} {arms : List Arm} {location : Location}
    {rank : Nat}
    (hscrutinee : Spelled rank scrutinee) (hne : arms ≠ []) (h : ∀ arm ∈ arms, SpelledArm arm) :
    Spelled 0 (.select scrutinee arms location) := by
  intro path tokens htokens
  rw [Expr.lexemes] at htokens
  obtain ⟨start, tokens, rfl, hstart, htokens⟩ := List.map_eq_cons_iff.mp htokens
  obtain ⟨scrutineeTokens, tokens, rfl, hscrutineeTokens, htokens⟩ :=
    List.map_eq_append_iff.mp htokens
  obtain ⟨ofWord, tokens, rfl, hof, htokens⟩ := List.map_eq_cons_iff.mp htokens
  obtain ⟨newline, tokens, rfl, hnewline, htokens⟩ := List.map_eq_cons_iff.mp htokens
  obtain ⟨indent, tokens, rfl, hindent, htokens⟩ := List.map_eq_cons_iff.mp htokens
  obtain ⟨armTokens, tokens, rfl, harmTokens, htokens⟩ := List.map_eq_append_iff.mp htokens
  obtain ⟨dedent, tokens, rfl, hdedent, htokens⟩ := List.map_eq_cons_iff.mp htokens
  obtain rfl := List.map_eq_nil_iff.mp htokens
  obtain ⟨scrutinee', hspellsScrutinee, hsameScrutinee⟩ :=
    hscrutinee.expression path hscrutineeTokens
  obtain ⟨arms', hspells, hsame⟩ := arms_spelled h path armTokens harmTokens
  have hne' : arms' ≠ [] := by
    rintro rfl
    exact hne (List.map_eq_nil_iff.mp hsame.symm)
  have hlines : Newlines [newline] := by
    intro token htoken
    obtain rfl : token = newline := by simpa using htoken
    rw [hnewline]
    rfl
  have hselect := Spells.select (by rw [hstart]; rfl) hspellsScrutinee (by rw [hof]; rfl)
    (List.cons_ne_nil newline []) hlines (by rw [hindent]; rfl) hspells hne' (by rw [hdedent]; rfl)
  refine ⟨_, hselect, ?_⟩
  simp only [Expr.unplaced, Arm.unplaced, Expr.moved, Arm.movedAll_eq_map] at hsameScrutinee hsame ⊢
  rw [hsameScrutinee, hsame]
  rfl

private theorem Level.rank_le (level : Level) : level.rank ≤ 5 := by
  cases level <;> decide

/-- Operators bind looser than calls do. -/
theorem rank_binary_le (left right : Expr) (operator : Token) (location : Location) :
    (Expr.binary left operator right location).rank ≤ 5 := by
  rw [Expr.rank]
  cases operatorLevel? operator with
  | none => exact Nat.zero_le 5
  | some level => exact level.rank_le

/-- An object that does not start with a negative number does not start with a minus sign. -/
theorem head_lexemes_ne_minus {e : Expr} (h : e.Normal) (hrank : 7 ≤ e.rank)
    (hstart : e.startsNegative = false) : ∀ lexeme ∈ e.lexemes.head?, lexeme.kind ≠ .minus := by
  induction h with
  | @intro e htidy _ ih =>
    intro lexeme hlexeme
    cases e with
    | conditional | function | select | call | unknown => simp [Expr.rank] at hrank
    | binary left operator right location =>
      have := rank_binary_le left right operator location
      omega
    | literal value location =>
      cases value with
      | decimal d =>
        obtain rfl : _ = lexeme := by
          simpa [Expr.lexemes, Value.lexemes, show d.isNegative = false from hstart] using hlexeme
        simp
      | bool b | text s =>
        obtain rfl : _ = lexeme := by simpa [Expr.lexemes, Value.lexemes] using hlexeme
        simp
      | nothing | int _ | list _ | record _ => exact htidy.elim
    | reference name location =>
      obtain rfl : name.toLexeme = lexeme := by simpa [Expr.lexemes] using hlexeme
      rcases (show name.kind = .ident ∨ name.kind = .uident from htidy) with hkind | hkind <;>
        simp [hkind]
    | grouping | list | record | update =>
      obtain rfl : _ = lexeme := by simpa [Expr.lexemes] using hlexeme
      simp [Symbol.lexeme]
    | get object name location =>
      rw [Expr.lexemes, List.head?_append, Option.mem_def, Option.or_eq_some_iff] at hlexeme
      rcases hlexeme with hobject | ⟨-, hdot⟩
      · exact ih object (by simp [Expr.children]) htidy.1 hstart lexeme hobject
      · obtain rfl : _ = lexeme := by simpa using hdot
        simp [Symbol.lexeme]

/-- A pattern that is not a capitalized name does not start with one. -/
theorem head_lexemes_ne_uident {e : Expr} (htidy : e.Tidy) (hrank : 8 ≤ e.rank)
    (hname : e.isCapitalizedName = false) :
    ∀ lexeme ∈ e.lexemes.head?, lexeme.kind ≠ .uident := by
  intro lexeme hlexeme
  cases e with
  | conditional | function | select | call | get | unknown => simp [Expr.rank] at hrank
  | binary left operator right location =>
    have := rank_binary_le left right operator location
    omega
  | literal value location =>
    cases value with
    | decimal d =>
      simp only [Expr.lexemes, Value.lexemes] at hlexeme
      split at hlexeme <;>
        · obtain rfl : _ = lexeme := by simpa using hlexeme
          simp [Symbol.lexeme]
    | bool b | text s =>
      obtain rfl : _ = lexeme := by simpa [Expr.lexemes, Value.lexemes] using hlexeme
      simp
    | nothing | int _ | list _ | record _ => exact htidy.elim
  | reference name location =>
    obtain rfl : name.toLexeme = lexeme := by simpa [Expr.lexemes] using hlexeme
    simpa [Expr.isCapitalizedName] using hname
  | grouping | list | record | update =>
    obtain rfl : _ = lexeme := by simpa [Expr.lexemes] using hlexeme
    simp [Symbol.lexeme]

/-- Tokens with the lexemes of a tidy arm spell it if those of its parts do. -/
theorem arm_spelled {arm : Arm} (h : arm.Tidy) (htidy : ∀ e ∈ arm.parts, e.Tidy)
    (hparts : ∀ e ∈ arm.parts, Spelled e.rank e) : SpelledArm arm := by
  cases arm with
  | tag subtype parameters result location =>
    exact tag_spelled h.1 h.2 (hparts result (by simp [Arm.parts]))
  | value pattern parameters result location =>
    obtain ⟨rfl, hrank, hname⟩ := h
    have hpattern : pattern ∈ (Arm.value pattern [] result location).parts := by simp [Arm.parts]
    refine value_spelled ((hparts pattern hpattern).of_le hrank) ?_
      (hparts result (by simp [Arm.parts]))
    exact head_lexemes_ne_uident (htidy pattern hpattern) hrank hname

/-- Tokens with the lexemes of a normal expression spell it in the category of its rank. -/
theorem normal_spelled {e : Expr} (h : e.Normal) : Spelled e.rank e := by
  induction h with
  | @intro e htidy hnormal ih =>
    cases e with
    | conditional c t e location =>
      exact conditional_spelled (ih c (by simp [Expr.children])) (ih t (by simp [Expr.children]))
        (ih e (by simp [Expr.children]))
    | binary left operator right location =>
      obtain ⟨level, hoperator, hleft, hright⟩ := htidy
      have hrank : (Expr.binary left operator right location).rank = level.rank := by
        rw [Expr.rank, operatorLevel?_eq_some hoperator]
        rfl
      rw [hrank]
      exact binary_spelled hoperator ((ih left (by simp [Expr.children])).of_le hleft)
        ((ih right (by simp [Expr.children])).of_le hright)
    | grouping inner location => exact grouping_spelled (ih inner (by simp [Expr.children]))
    | literal value location => exact literal_spelled htidy
    | reference name location => exact reference_spelled htidy
    | call callee arguments location =>
      obtain ⟨hcallee, hne, harguments⟩ := htidy
      refine call_spelled ((ih callee (by simp [Expr.children])).of_le hcallee) hne ?_ ?_
      · intro argument hargument
        have hchild := ih argument (by simp [Expr.children, hargument])
        exact hchild.of_le (harguments argument hargument).1
      · intro argument hargument
        have hchild := hnormal argument (by simp [Expr.children, hargument])
        exact head_lexemes_ne_minus hchild (harguments argument hargument).1
          (harguments argument hargument).2
    | list elements location => exact list_spelled fun e he => ⟨e.rank, ih e he⟩
    | record fields location =>
      exact record_spelled htidy fun field hfield =>
        ⟨field.2.rank, ih field.2 (List.mem_map_of_mem hfield)⟩
    | update target fields location =>
      refine update_spelled (ih target (by simp [Expr.children])) htidy fun field hfield => ?_
      exact ⟨field.2.rank, ih field.2 (List.mem_cons_of_mem _ (List.mem_map_of_mem hfield))⟩
    | function parameters body location =>
      exact function_spelled htidy (ih body (by simp [Expr.children]))
    | get object name location =>
      exact get_spelled ((ih object (by simp [Expr.children])).of_le htidy.1) htidy.2
    | select scrutinee arms location =>
      refine select_spelled (ih scrutinee (by simp [Expr.children])) htidy.1 fun arm harm => ?_
      have hpart : ∀ e ∈ arm.parts, e ∈ (Expr.select scrutinee arms location).children :=
        fun e he => List.mem_cons_of_mem _ (List.mem_flatMap.mpr ⟨arm, harm, he⟩)
      exact arm_spelled (htidy.2 arm harm) (fun e he => (hnormal e (hpart e he)).tidy)
        fun e he => ih e (hpart e he)
    | unknown reason => exact htidy.elim

/-- The tokens of a source with the path spell the expression up to its places. -/
def Writes (path : Option String) (tokens : List Token) (e : Expr) : Prop :=
  ∃ e', Spells path Apart tokens (.expression e') ∧ e'.unplaced = e.unplaced

/-- **Completeness on normal forms.** Tokens with the lexemes of a normal expression spell it
wherever they stand. However it is spelled, with or without optional line ends, blocks and
separators, the reader finds it again in front of any token that does not extend it and consumes
nothing more, and a program that binds a name to it has it as the initializer. -/
theorem normal_read_back {e : Expr} (h : e.Normal) :
    (∀ path (tokens : List Token), tokens.map Token.toLexeme = e.lexemes → Writes path tokens e) ∧
      ∀ path tokens, Writes path tokens e →
        (∀ last rest, Closed tokens (rest.headD last) →
          ∃ e', Expr.parser ⟨last, path⟩ (tokens ++ rest) = .ok e' rest ∧
            e'.unplaced = e.unplaced) ∧
        ∀ name colon newline eof : Token, name.kind = .ident → colon.kind = .colon →
          newline.kind = .newline → eof.kind = .eof →
          ∃ e', Program.ofTokens (name :: colon :: (tokens ++ [newline, eof])) path =
              .ok ⟨[.binding name e' (name.location path)], path⟩ ∧
            e'.unplaced = e.unplaced := by
  refine ⟨fun path tokens htokens => (normal_spelled h).expression path htokens, ?_⟩
  rintro path tokens ⟨e', hspells, hsame⟩
  refine ⟨fun last rest hclosed => ⟨e', hspells.read ⟨last, path⟩ rest hclosed, hsame⟩, ?_⟩
  intro name colon newline eof hname hcolon hnewline heof
  have hlines : Newlines [newline] := by simpa [Newlines] using hnewline
  have hstmt : SpellsStmt path Apart (name :: colon :: tokens)
      (.binding name e' (name.location path)) :=
    .binding hname hcolon (.inline hspells)
  have hapart : Apart (name :: colon :: tokens) ([newline] ++ []) := by
    refine .inr fun token htoken => ?_
    obtain rfl : newline = token := by simpa using htoken
    exact extendsExpression_eq_false (by simp [hnewline])
  have hprogram : SpellsProgram path Apart ((name :: colon :: tokens) ++ ([newline] ++ []))
      [.binding name e' (name.location path)] :=
    ⟨[], _, rfl, by simp [Newlines], .cons hstmt hlines hapart .nil⟩
  have hread := hprogram.ofTokens heof
  simp only [List.append_nil, List.append_assoc, List.cons_append, List.nil_append] at hread
  exact ⟨e', hread, hsame⟩

/-- The expression `if f [-1] then a.b else case c of A x → 1`. -/
def choiceInBranch : Expr :=
  .conditional
    (.call (.reference (token .ident "f") origin)
      [.list [.literal (.decimal (.finite true 1 0)) origin] origin] origin)
    (.get (.reference (token .ident "a") origin) (token .ident "b") origin)
    (.select (.reference (token .ident "c") origin)
      [.tag (token .uident "A") [token .ident "x"] (.literal (.decimal (.finite false 1 0)) origin)
        origin] origin) origin
where
  origin : Location := ⟨⟨0, 0⟩, none⟩
  token (kind : Kind) (text : String) : Token := ⟨⟨kind, text, .text text⟩, origin.toPosition⟩

private theorem choiceInBranch_normal : choiceInBranch.Normal := by
  have name : ∀ kind text, kind = .ident ∨ kind = .uident →
      (Expr.reference (choiceInBranch.token kind text) choiceInBranch.origin).Normal := by
    intro kind text hkind
    exact .intro hkind (by simp [Expr.children])
  have number : ∀ value, value.IsLiteral →
      (Expr.literal value choiceInBranch.origin).Normal := by
    intro value hvalue
    exact .intro hvalue (by simp [Expr.children])
  have hminusOne : (Value.decimal (.finite true 1 0)).IsLiteral := ⟨1, 0, .inr rfl⟩
  have hone : (Value.decimal (.finite false 1 0)).IsLiteral := ⟨1, 0, .inl rfl⟩
  refine .intro trivial ?_
  simp only [choiceInBranch, Expr.children, List.forall_mem_cons, List.not_mem_nil, false_implies,
    implies_true, and_true]
  refine ⟨.intro ?_ ?_, .intro ?_ ?_, .intro ?_ ?_⟩
  · simp [Expr.Tidy, Expr.rank, Expr.startsNegative]
  · simp only [Expr.children, List.forall_mem_cons, List.not_mem_nil, false_implies, implies_true,
      and_true]
    refine ⟨name _ _ (.inl rfl), .intro trivial ?_⟩
    simpa [Expr.children] using number _ hminusOne
  · exact ⟨by simp [Expr.rank], rfl⟩
  · simpa [Expr.children] using name _ _ (.inl rfl)
  · simp [Expr.Tidy, Arm.Tidy, Names, choiceInBranch.token]
  · simp only [Expr.children, List.forall_mem_cons, List.flatMap_cons, List.flatMap_nil, Arm.parts,
      List.append_nil, List.not_mem_nil, false_implies, implies_true, and_true]
    exact ⟨name _ _ (.inl rfl), number _ hone⟩

/-- A conditional with a call, a negative number, an access and a choice in it is read back. -/
theorem choiceInBranch_read_back : choiceInBranch.Normal ∧
    ∃ tokens : List Token, tokens.map Token.toLexeme = choiceInBranch.lexemes ∧
      ∀ (path : Option String) (eof : Token), eof.kind = .eof →
        ∃ e', Expr.parser ⟨eof, path⟩ (tokens ++ [eof]) = .ok e' [eof] ∧
          e'.unplaced = choiceInBranch.unplaced := by
  refine ⟨choiceInBranch_normal, choiceInBranch.lexemes.map fun lexeme => ⟨lexeme, ⟨1, 1⟩⟩, ?_, ?_⟩
  · rw [List.map_map]
    exact List.map_id _
  · intro path eof heof
    obtain ⟨hwrites, hread⟩ := normal_read_back choiceInBranch_normal
    refine (hread path _ (hwrites path _ ?_)).1 eof [eof]
      (.inr (extendsExpression_eq_false (by simp [heof])))
    rw [List.map_map]
    exact List.map_id _

end Slick.Grammar
