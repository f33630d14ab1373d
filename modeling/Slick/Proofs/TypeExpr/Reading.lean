import Slick.Proofs.Line.Partition
import Slick.Proofs.TypeExpr.Text

/-!
# Types are read back from their texts

The text of a type is a source of one line. Its tokens spell the type with parentheses around the
arguments that have arguments, and nowhere else, and so they are read as the type, up to the end of
the line. A type that was read from a source, however many parentheses stood there, has a text with
as few of them as any spelling of the type. Main statement: `TypeExpr.toText_round_trips`.
-/

namespace Slick

open Layout Grammar

variable {path : Option String}

/-- A lexeme that its spelling is read as, up to the last character. -/
def Lexeme.ReadWhole (keywords : Keywords) (l : Lexeme) : Prop :=
  Lead.ofText keywords l.text.toList = .lexeme l []

private theorem Lexeme.readWhole_iff {keywords : Keywords} {l : Lexeme} :
    l.ReadWhole keywords ↔ l.Ends keywords [] := by
  rw [ReadWhole, Lead.ofText_eq_lexeme_iff, List.append_nil]
  exact and_iff_right rfl

/-- A name ends where no character of a word follows. -/
theorem Lexeme.Known.ends_name {keywords : Keywords} {l : Lexeme} (h : l.Known keywords)
    (hkind : l.kind = .ident ∨ l.kind = .uident) {rest : List Char}
    (hrest : ∀ c ∈ rest.head?, Word.isPart c = false) : l.Ends keywords rest := by
  obtain ⟨word, hword, rfl⟩ := h.exists_word hkind
  exact .word hword hrest

/-- The names in the texts of types are the words that are read as names. -/
theorem isTypeText_iff {keywords : Keywords} {name : String} :
    IsTypeText (Lexeme.ReadWhole keywords) name ↔ IsTypeText (Lexeme.Known keywords) name := by
  constructor
  · rintro ⟨l, hwhole, hkind, rfl⟩
    exact ⟨l, .inr (Lead.scanned_of_ofText hwhole), hkind, rfl⟩
  · rintro ⟨l, hknown, hkind, rfl⟩
    exact ⟨l, Lexeme.readWhole_iff.mpr (hknown.ends_name hkind.symm (by simp)), hkind, rfl⟩

namespace TypeExpr

variable {keywords : Keywords}

mutual

private theorem madeOf_iff_of_names {known known' : Lexeme → Prop}
    (hnames : ∀ name, IsTypeText known name ↔ IsTypeText known' name) :
    (type : TypeExpr) → (type.MadeOf known ↔ type.MadeOf known')
  | mk name types => by
    rw [MadeOf, MadeOf, hnames name, allMadeOf_iff_of_names hnames types]

private theorem allMadeOf_iff_of_names {known known' : Lexeme → Prop}
    (hnames : ∀ name, IsTypeText known name ↔ IsTypeText known' name) :
    (types : List TypeExpr) → (AllMadeOf known types ↔ AllMadeOf known' types)
  | [] => Iff.rfl
  | type :: types => by
    rw [AllMadeOf, AllMadeOf, madeOf_iff_of_names hnames type,
      allMadeOf_iff_of_names hnames types]

end

/-- It is the same to be made of names that are read whole and of the lexemes of sources. -/
theorem madeOf_readWhole_iff (type : TypeExpr) :
    type.MadeOf (Lexeme.ReadWhole keywords) ↔ type.MadeOf (Lexeme.Known keywords) :=
  madeOf_iff_of_names (fun _ => isTypeText_iff) type

mutual

/-- The number of arguments, however deep, that have arguments themselves. -/
def compounds : TypeExpr → Nat
  | mk _ arguments => compoundArguments arguments

/-- The same for some arguments, which count themselves. -/
def compoundArguments : List TypeExpr → Nat
  | [] => 0
  | type :: types =>
    (if type.arguments.isEmpty then 0 else 1) + type.compounds + compoundArguments types

end

end TypeExpr

namespace Grammar

/-- The tokens spell the type or the arguments, with parentheses around the arguments that have
arguments and nowhere else. -/
inductive SpellsTightly : List Token → TypePhrase → Prop where
  | named {name : Token} {rest : List Token} {types : List TypeExpr} :
    IsTypeName name → SpellsTightly rest (.arguments types) →
    SpellsTightly (name :: rest) (.type (.mk name.text types))
  | noArguments : SpellsTightly [] (.arguments [])
  | nameArgument {name : Token} {rest : List Token} {types : List TypeExpr} :
    IsTypeName name → SpellsTightly rest (.arguments types) →
    SpellsTightly (name :: rest) (.arguments (.mk name.text [] :: types))
  | typeArgument {opener closer : Token} {inner rest : List Token} {type : TypeExpr}
      {types : List TypeExpr} :
    opener.kind = .lparen → SpellsTightly inner (.type type) → type.arguments ≠ [] →
    closer.kind = .rparen → SpellsTightly rest (.arguments types) →
    SpellsTightly (opener :: (inner ++ closer :: rest)) (.arguments (type :: types))

variable {tokens : List Token} {phrase : TypePhrase}

/-- What spells a type tightly spells it. -/
theorem SpellsTightly.spells (h : SpellsTightly tokens phrase) : SpellsType tokens phrase := by
  induction h with
  | named hname _ ih => exact .named hname ih
  | noArguments => exact .noArguments
  | nameArgument hname _ ih => exact .nameArgument hname ih
  | typeArgument hopener _ _ hcloser _ ihinner ihrest =>
    exact .typeArgument hopener ihinner hcloser ihrest

/-- The number of opening parentheses among the tokens. -/
def openings (tokens : List Token) : Nat := tokens.countP fun token => token.kind == .lparen

private theorem openings_append (front back : List Token) :
    openings (front ++ back) = openings front + openings back := List.countP_append

private theorem openings_opener {token : Token} (h : token.kind = .lparen) (tokens : List Token) :
    openings (token :: tokens) = openings tokens + 1 := by
  rw [openings, List.countP_cons_of_pos (by simp [h]), openings]

private theorem openings_cons {token : Token} (h : token.kind ≠ .lparen) (tokens : List Token) :
    openings (token :: tokens) = openings tokens := by
  rw [openings, List.countP_cons_of_neg (by simp [h]), openings]

private theorem IsTypeName.ne_opener {name : Token} (h : IsTypeName name) :
    name.kind ≠ .lparen := by
  rcases h with h | h <;> rw [h] <;> decide

/-- The arguments that need parentheses. -/
def TypePhrase.compounds : TypePhrase → Nat
  | .type t => t.compounds
  | .arguments types => TypeExpr.compoundArguments types

/-- A type is spelled tightly with one pair of parentheses for each argument that needs them. -/
theorem SpellsTightly.openings_eq (h : SpellsTightly tokens phrase) :
    openings tokens = phrase.compounds := by
  induction h with
  | named hname _ ih =>
    rw [openings_cons hname.ne_opener, ih]
    rfl
  | noArguments => rfl
  | nameArgument hname _ ih =>
    rw [openings_cons hname.ne_opener, ih]
    simp [TypePhrase.compounds, TypeExpr.compoundArguments, TypeExpr.compounds, TypeExpr.arguments]
  | @typeArgument opener closer inner rest type types hopener _ hne hcloser _ ihinner ihrest =>
    have hcloser : closer.kind ≠ .lparen := by rw [hcloser]; decide
    rw [openings_opener hopener, openings_append, openings_cons hcloser, ihinner, ihrest]
    simp only [TypePhrase.compounds, TypeExpr.compoundArguments, List.isEmpty_iff, if_neg hne]
    omega

/-- No spelling of a type has fewer parentheses. -/
theorem SpellsType.compounds_le (h : SpellsType tokens phrase) :
    phrase.compounds ≤ openings tokens := by
  induction h with
  | named hname _ ih =>
    rw [openings_cons hname.ne_opener]
    exact ih
  | @parenthesised opener closer inner type hopener _ _ ih =>
    rw [openings_opener hopener, openings_append]
    omega
  | noArguments => exact Nat.le_refl 0
  | nameArgument hname _ ih =>
    rw [openings_cons hname.ne_opener]
    simpa [TypePhrase.compounds, TypeExpr.compoundArguments, TypeExpr.compounds,
      TypeExpr.arguments] using ih
  | @typeArgument opener closer inner rest type types hopener _ hcloser _ ihinner ihrest =>
    have hcloser : closer.kind ≠ .lparen := by rw [hcloser]; decide
    rw [openings_opener hopener, openings_append, openings_cons hcloser]
    simp only [TypePhrase.compounds, TypeExpr.compoundArguments] at ihinner ihrest ⊢
    split <;> omega

end Grammar

namespace TypeExpr

variable {keywords : Keywords}

/-- Arguments are made up of tokens that spell them tightly, in front of whatever may follow a type.
What follows starts at the column `stop`. -/
theorem tiled_argumentsText : (types : List TypeExpr) →
    AllMadeOf (Lexeme.Known keywords) types → (rest : List Char) → Ends rest →
    (line column : Nat) →
    ∃ body stop, SpellsTightly body (.arguments types) ∧ ∀ more,
      Line.Tiled keywords line stop rest more →
      Line.Tiled keywords line column ((argumentsText types).toList ++ rest) (body ++ more)
  | [], _, rest, _, line, column => by
    refine ⟨[], column, .noArguments, fun more hmore => ?_⟩
    simpa [argumentsText] using hmore
  | mk name inner :: types, h, rest, hrest, line, column => by
    obtain ⟨⟨⟨l, hknown, hkind, rfl⟩, hinner⟩, htypes⟩ := h
    by_cases hnil : inner = []
    · subst hnil
      obtain ⟨body, stop, htight, htiled⟩ := tiled_argumentsText types htypes rest hrest line
        (column + 1 + l.text.length)
      have hends := hknown.ends_name hkind.symm (head_argumentsText hrest types)
      refine ⟨l.place line (column + 1) :: body, stop, .nameArgument hkind htight,
        fun more hmore => ?_⟩
      rw [argumentsText_cons_name, List.cons_append, List.append_assoc]
      exact .blank (.inl rfl) (.token hends (htiled more hmore))
    · -- The closing parenthesis ends the inner arguments, and the outer ones go on behind it.
      obtain ⟨inside, closing, htight, hinside⟩ := tiled_argumentsText inner hinner
        (')' :: ((argumentsText types).toList ++ rest)) (ends_closer _) line
        (column + 1 + 1 + l.text.length)
      obtain ⟨body, stop, htight', htiled⟩ := tiled_argumentsText types htypes rest hrest line
        (closing + 1)
      have hopener : (Symbol.lexeme ['('] .lparen).Ends keywords
          (l.text.toList ++ ((argumentsText inner).toList ++
            ')' :: ((argumentsText types).toList ++ rest))) :=
        .symbol (by decide) (by simp) (by simp)
      have hcloser : (Symbol.lexeme [')'] .rparen).Ends keywords
          ((argumentsText types).toList ++ rest) := .symbol (by decide) (by simp) (by simp)
      have hends := hknown.ends_name hkind.symm
        (head_argumentsText (ends_closer ((argumentsText types).toList ++ rest)) inner)
      refine ⟨(Symbol.lexeme ['('] .lparen).place line (column + 1) ::
        ((l.place line (column + 1 + 1) :: inside) ++
          (Symbol.lexeme [')'] .rparen).place line closing :: body), stop,
        .typeArgument rfl (.named hkind htight) hnil rfl htight', fun more hmore => ?_⟩
      have hclosed := Line.Tiled.token hcloser (htiled more hmore)
      have hnamed := Line.Tiled.token hends (hinside _ hclosed)
      have hopened := Line.Tiled.blank (.inl rfl) (.token hopener hnamed)
      simpa [argumentsText_cons_type _ hnil, Symbol.lexeme] using hopened

/-- The text of a type is a line of tokens that spell the type tightly. -/
theorem scan_toText {type : TypeExpr} (h : type.MadeOf (Lexeme.Known keywords)) (line : Nat) :
    ∃ body, Line.scan keywords path line type.toText.toList = .ok body ∧
      SpellsTightly body (.type type) := by
  obtain ⟨name, types⟩ := type
  obtain ⟨⟨l, hknown, hkind, rfl⟩, htypes⟩ := h
  have hnone : Ends [] := by simp [Ends]
  obtain ⟨body, stop, htight, htiled⟩ := tiled_argumentsText types htypes [] hnone line
    (1 + l.text.length)
  have hends := hknown.ends_name hkind.symm (head_argumentsText hnone types)
  have hnamed := Line.Tiled.token hends (htiled [] (.finished (.inl rfl)))
  rw [List.append_nil, List.append_nil, ← String.toList_append] at hnamed
  exact ⟨_, hnamed.scanAt_eq, .named hkind htight⟩

/-- What stands behind the line of a type: the end of the line and the end of the source. -/
def lineEnd (type : TypeExpr) : List Token :=
  [Lexeme.newline.place 1 (type.toText.length + 1), Lexeme.eof.place 2 1]

/-- The text of a type is a source whose tokens spell the type tightly. -/
theorem tokenize_toText {type : TypeExpr} (h : type.MadeOf (Lexeme.Known keywords)) :
    ∃ body, tokenize keywords type.toText path = .ok (body ++ type.lineEnd) ∧
      SpellsTightly body (.type type) := by
  obtain ⟨body, hscan, htight⟩ := scan_toText h 1
  obtain ⟨hnewline, hreturn⟩ := toText_plain h
  have hlast : type.toText.toList.getLast? ≠ some '\r' :=
    fun hlast => hreturn (List.mem_of_getLast? hlast)
  have hwidth : Line.indentWidth type.toText.toList = 0 := by
    obtain ⟨name, types⟩ := type
    obtain ⟨⟨l, hknown, hkind, rfl⟩, -⟩ := h
    have hends : l.Ends keywords [] := hknown.ends_name hkind.symm (by simp)
    rw [toText, String.toList_append]
    exact hends.indentWidth_append _
  have hne : body ≠ [] := by
    cases htight
    simp
  have htokens := tokenize_line hnewline hlast hwidth hne hscan
  rw [String.ofList_toList, String.length_toList] at htokens
  exact ⟨body, htokens, htight⟩

/-- The tokens are those of the text of the type, they spell it tightly, and they are read as the
type up to the end of the line. -/
structure ReadsBack (keywords : Keywords) (path : Option String) (type : TypeExpr)
    (body : List Token) : Prop where
  tokens : tokenize keywords type.toText path = .ok (body ++ type.lineEnd)
  tight : SpellsTightly body (.type type)
  read : TypeExpr.parser ⟨Lexeme.eof.place 2 1, path⟩ (body ++ type.lineEnd) = .ok type type.lineEnd

/-- Types that are made of names are read back. -/
theorem exists_readsBack {type : TypeExpr} (h : type.MadeOf (Lexeme.Known keywords))
    (path : Option String) :
    ∃ body, ReadsBack keywords path type body := by
  obtain ⟨body, htokens, htight⟩ := tokenize_toText h
  have hread := htight.spells.read ⟨Lexeme.eof.place 2 1, path⟩
  exact ⟨body, htokens, htight, hread type.lineEnd rfl⟩

/-- A type that is read from the tokens of a source is spelled by some of them and made of names. -/
theorem madeOf_of_read {source : String} {tokens : List Token} {last : Token} {position : Nat}
    {type : TypeExpr} {rest : List Token} (htokens : tokenize keywords source path = .ok tokens)
    (hlast : tokens.getLast? = some last)
    (hread : TypeExpr.parser ⟨last, path⟩ (tokens.drop position) = .ok type rest) :
    ∃ used, tokens.drop position = used ++ rest ∧ SpellsType used (.type type) ∧
      type.MadeOf (Lexeme.Known keywords) := by
  obtain ⟨last', hlast', hend⟩ := tokenize_getLast htokens
  obtain rfl : last' = last := Option.some.inj (hlast'.symm.trans hlast)
  obtain ⟨used, hused, hspells⟩ := parser_type_reads hend _ _ _ hread
  refine ⟨used, hused, hspells, hspells.madeOf fun token htoken => ?_⟩
  apply tokenize_known htokens
  apply List.mem_of_mem_drop (i := position)
  rw [hused]
  exact List.mem_append_left _ htoken

/-- **Types are read back from their texts.** The text of a type whose names are read as names is a
line of tokens, which is read as the type up to the end of the line; so different types have
different texts. The same holds for every type that is read anywhere among the tokens of a source:
its text has parentheses around the arguments that have arguments and nowhere else, which are no
more than stand in the source. -/
theorem toText_round_trips (keywords : Keywords) (path : Option String) :
    (∀ type : TypeExpr, type.MadeOf (Lexeme.ReadWhole keywords) →
      ∃ body, ReadsBack keywords path type body) ∧
    (∀ type type' : TypeExpr, type.MadeOf (Lexeme.ReadWhole keywords) →
      type'.MadeOf (Lexeme.ReadWhole keywords) → type.toText = type'.toText → type = type') ∧
    ∀ source tokens last position type rest, tokenize keywords source path = .ok tokens →
      tokens.getLast? = some last →
      TypeExpr.parser ⟨last, path⟩ (tokens.drop position) = .ok type rest →
      type.MadeOf (Lexeme.ReadWhole keywords) ∧
      ∃ body used, ReadsBack keywords path type body ∧ openings body = type.compounds ∧
        tokens.drop position = used ++ rest ∧ SpellsType used (.type type) ∧
        openings body ≤ openings used := by
  refine ⟨fun type htype => ?_, fun type type' htype htype' htext => ?_, ?_⟩
  · rw [madeOf_readWhole_iff] at htype
    exact exists_readsBack htype path
  · rw [madeOf_readWhole_iff] at htype htype'
    exact toText_injective htype htype' htext
  · intro source tokens last position type rest htokens hlast hread
    obtain ⟨used, hused, hspells, hmade⟩ := madeOf_of_read htokens hlast hread
    obtain ⟨body, hback⟩ := exists_readsBack hmade path
    have hopenings := hback.tight.openings_eq
    refine ⟨(madeOf_readWhole_iff type).mpr hmade, body, used, hback, hopenings, hused, hspells, ?_⟩
    rw [hopenings]
    exact hspells.compounds_le

/-- The tokens of `type T :` and `A (L (M (b)))` on a deeper line. -/
def nestedPayload : List Token :=
  [⟨⟨.keyword, "type", .text "type"⟩, ⟨1, 1⟩⟩, ⟨⟨.uident, "T", .text "T"⟩, ⟨1, 6⟩⟩,
    ⟨⟨.colon, ":", .nothing⟩, ⟨1, 8⟩⟩, ⟨.newline, ⟨1, 9⟩⟩, ⟨.indent, ⟨2, 1⟩⟩,
    ⟨⟨.uident, "A", .text "A"⟩, ⟨2, 3⟩⟩, ⟨⟨.lparen, "(", .nothing⟩, ⟨2, 5⟩⟩,
    ⟨⟨.uident, "L", .text "L"⟩, ⟨2, 6⟩⟩, ⟨⟨.lparen, "(", .nothing⟩, ⟨2, 8⟩⟩,
    ⟨⟨.uident, "M", .text "M"⟩, ⟨2, 9⟩⟩, ⟨⟨.lparen, "(", .nothing⟩, ⟨2, 11⟩⟩,
    ⟨⟨.ident, "b", .text "b"⟩, ⟨2, 12⟩⟩, ⟨⟨.rparen, ")", .nothing⟩, ⟨2, 13⟩⟩,
    ⟨⟨.rparen, ")", .nothing⟩, ⟨2, 14⟩⟩, ⟨⟨.rparen, ")", .nothing⟩, ⟨2, 15⟩⟩,
    ⟨.newline, ⟨2, 16⟩⟩, ⟨.dedent, ⟨2, 1⟩⟩, ⟨.eof, ⟨3, 1⟩⟩]

/-- Three pairs of parentheses in a source become one. -/
theorem toText_round_trips_nestedPayload : ∃ tokens last rest,
    tokenize Keywords.standard "type T :\n  A (L (M (b)))" none = .ok tokens ∧
      tokens.getLast? = some last ∧
      TypeExpr.parser ⟨last, none⟩ (tokens.drop 6) = .ok (.mk "L" [.mk "M" [.mk "b" []]]) rest ∧
      (mk "L" [mk "M" [mk "b" []]]).toText = "L (M b)" ∧
      ∃ body, ReadsBack Keywords.standard none (.mk "L" [.mk "M" [.mk "b" []]]) body ∧
        openings body = 1 := by
  have htokens : tokenize Keywords.standard "type T :\n  A (L (M (b)))" none = .ok nestedPayload :=
    rfl
  have hlast : nestedPayload.getLast? = some ⟨.eof, ⟨3, 1⟩⟩ := rfl
  have hread : TypeExpr.parser ⟨⟨.eof, ⟨3, 1⟩⟩, none⟩ (nestedPayload.drop 6) =
      .ok (.mk "L" [.mk "M" [.mk "b" []]]) (nestedPayload.drop 15) := rfl
  obtain ⟨-, body, used, hback, hopenings, -⟩ :=
    (toText_round_trips Keywords.standard none).2.2 _ _ _ 6 _ _ htokens hlast hread
  exact ⟨_, _, _, htokens, hlast, hread, rfl, body, hback, hopenings⟩

end TypeExpr

end Slick
