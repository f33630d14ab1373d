import Slick.Proofs.Layout.Padding

/-!
# Other spellings in a line

Five spellings in ASCII have signs that stand for the same. Put the signs in the place of some of
them, right where they stand: nothing around them is read in another way. A sign continues no lexeme
in front of it, and it ends whatever follows it. `Respelling` puts the two lines side by side, token
by token, and what holds of both is shown along it. Main statements: `Tiled.respelling` and
`Respelling.tiled`.
-/

namespace Slick

namespace Symbol

/-- The spellings in ASCII with the signs that stand for the same. -/
def asciiSpellings : List (String × Char) :=
  [("fn", 'ƒ'), ("->", '→'), ("!=", '≠'), ("<=", '≤'), (">=", '≥')]

/-- The sign that stands for a spelling in ASCII. -/
def sign? (spelling : String) : Option Char :=
  (asciiSpellings.find? fun pair => pair.1 == spelling).map Prod.snd

/-- The spelling in Unicode. Most spellings have no other and stay. -/
def inUnicode (spelling : String) : String :=
  match sign? spelling with
  | some sign => String.ofList [sign]
  | none => spelling

private theorem mem_of_sign? {spelling : String} {sign : Char} (h : sign? spelling = some sign) :
    (spelling, sign) ∈ asciiSpellings := by
  obtain ⟨pair, hfind, rfl⟩ := Option.map_eq_some_iff.mp h
  obtain rfl : pair.1 = spelling := by simpa using List.find?_some hfind
  exact List.mem_of_find?_eq_some hfind

private theorem inUnicode_of_sign? {spelling : String} {sign : Char}
    (h : sign? spelling = some sign) :
    inUnicode spelling = String.ofList [sign] := by
  rw [inUnicode, h]

private theorem inUnicode_of_sign?_none {spelling : String} (h : sign? spelling = none) :
    inUnicode spelling = spelling := by
  rw [inUnicode, h]

/-- Signs have no other spelling. -/
theorem inUnicode_inUnicode (spelling : String) :
    inUnicode (inUnicode spelling) = inUnicode spelling := by
  cases h : sign? spelling with
  | none => rw [inUnicode_of_sign?_none h, inUnicode_of_sign?_none h]
  | some sign =>
    have hsigns : ∀ pair ∈ asciiSpellings, sign? (String.ofList [pair.2]) = none := by decide
    rw [inUnicode_of_sign? h, inUnicode_of_sign?_none (hsigns _ (mem_of_sign? h))]

/-- The signs. -/
def IsSign (c : Char) : Prop := c ∈ asciiSpellings.map Prod.snd

private theorem isSign_of_sign? {spelling : String} {sign : Char} (h : sign? spelling = some sign) :
    IsSign sign :=
  List.mem_map.mpr ⟨_, mem_of_sign? h, rfl⟩

/-- A sign continues no numeral and no word. -/
theorem IsSign.not_part {c : Char} (h : IsSign c) : c.isDigit = false ∧ Word.isPart c = false := by
  have hall : ((asciiSpellings.map Prod.snd).all fun c => !c.isDigit && !Word.isPart c) = true := by
    decide +kernel
  simpa using List.all_eq_true.mp hall c h

/-- A sign continues no symbol, and it is no point and no line feed. -/
theorem IsSign.ne {c d : Char} (h : IsSign c) (hd : d ∈ ['-', '>', '=', '.', '\n']) : c ≠ d := by
  have hall : ∀ sign ∈ asciiSpellings.map Prod.snd, sign ∉ ['-', '>', '=', '.', '\n'] := by
    simp [asciiSpellings]
  rintro rfl
  exact hall c h hd

/-- The kinds that are spelled in ASCII or by a sign. -/
def signKinds : List Kind := [.fn, .arrow, .ne, .le, .ge]

/-- A symbol in ASCII and its sign are of one kind. -/
theorem sign_mem_table : ∀ entry ∈ table, ∀ pair ∈ asciiSpellings, String.ofList entry.1 = pair.1 →
    ([pair.2], entry.2) ∈ table ∧ entry.2 ∈ signKinds := by
  decide +kernel

end Symbol

namespace Lexeme

/-- The lexeme with its spelling in Unicode. -/
def inUnicode (l : Lexeme) : Lexeme := { l with text := Symbol.inUnicode l.text }

private theorem toList_inUnicode {l : Lexeme} {sign : Char} (h : Symbol.sign? l.text = some sign) :
    l.inUnicode.text.toList = [sign] := by
  rw [inUnicode, Symbol.inUnicode_of_sign? h, String.toList_ofList]

/-- A lexeme that has a sign is a symbol under that sign. -/
theorem Ends.sign {keywords : Keywords} {l : Lexeme} {rest : List Char} {sign : Char}
    (h : l.Ends keywords rest) (hsign : Symbol.sign? l.text = some sign) :
    l.kind ∈ Symbol.signKinds ∧ ([sign], l.kind) ∈ Symbol.table ∧
      l.inUnicode = Symbol.lexeme [sign] l.kind := by
  have hmem := Symbol.mem_of_sign? hsign
  have hunicode := Symbol.inUnicode_of_sign? hsign
  have hhead : ∀ pair ∈ Symbol.asciiSpellings, ∀ c ∈ pair.1.toList.head?,
      c.isDigit = false ∧ c ≠ '\'' := by
    simp [Symbol.asciiSpellings, Char.isDigit]
  cases h with
  | @numeral whole _ hne hwhole =>
    obtain ⟨d, more, rfl⟩ := List.exists_cons_of_ne_nil hne
    have hdigit := (hhead _ hmem d (by simp)).1
    rw [hwhole d List.mem_cons_self] at hdigit
    cases hdigit
  | @fraction whole part _ hne hwhole =>
    obtain ⟨d, more, rfl⟩ := List.exists_cons_of_ne_nil hne
    have hdigit := (hhead _ hmem d (by simp)).1
    rw [hwhole d List.mem_cons_self] at hdigit
    cases hdigit
  | text => exact absurd rfl (hhead _ hmem '\'' (by simp)).2
  | @word word _ hword =>
    rw [Word.lexeme_text] at hmem
    have hwords : ∀ pair ∈ Symbol.asciiSpellings, Word.IsWord pair.1.toList →
        pair = ("fn", 'ƒ') := by
      decide +kernel
    have hfn := hwords _ hmem (by simpa using hword)
    obtain ⟨htext, rfl⟩ := Prod.mk.inj hfn
    have hlexeme : Word.lexeme keywords word = ⟨.fn, "fn", .nothing⟩ := by
      rw [Word.lexeme, htext, if_pos rfl]
    rw [hlexeme]
    exact ⟨by decide, by decide, rfl⟩
  | @symbol spelling _ kind hsymbol =>
    obtain ⟨htable, hkind⟩ := Symbol.sign_mem_table _ hsymbol _ hmem rfl
    refine ⟨hkind, htable, ?_⟩
    rw [inUnicode, hunicode]
    rfl

/-- A lexeme under its sign ends in front of anything. -/
theorem Ends.inUnicode {keywords : Keywords} {l : Lexeme} {rest : List Char} {sign : Char}
    (h : l.Ends keywords rest) (hsign : Symbol.sign? l.text = some sign) (behind : List Char) :
    l.inUnicode.Ends keywords behind := by
  obtain ⟨hkind, htable, hlexeme⟩ := h.sign hsign
  rw [hlexeme]
  refine .symbol htable (fun hminus => ?_) fun hless => ?_
  · rw [hminus] at hkind
    exact absurd hkind (by decide)
  · rcases hless with hless | hless <;> rw [hless] at hkind <;> exact absurd hkind (by decide)

/-- Only a point starts with a point. -/
theorem Ends.eq_point {keywords : Keywords} {l : Lexeme} {rest : List Char}
    (h : l.Ends keywords rest) (hhead : '.' ∈ l.text.toList.head?) : l.text.toList = ['.'] := by
  cases h with
  | @numeral whole _ hne hwhole =>
    obtain ⟨d, more, rfl⟩ := List.exists_cons_of_ne_nil hne
    obtain rfl : d = '.' := by simpa using hhead
    exact absurd (hwhole '.' List.mem_cons_self) (by decide)
  | @fraction whole part _ hne hwhole =>
    obtain ⟨d, more, rfl⟩ := List.exists_cons_of_ne_nil hne
    obtain rfl : d = '.' := by simpa using hhead
    exact absurd (hwhole '.' List.mem_cons_self) (by decide)
  | text => simp at hhead
  | @word word _ hword =>
    obtain ⟨⟨c, hc, hstart⟩, -⟩ := hword
    rw [Word.lexeme_text, String.toList_ofList, Option.mem_def, Option.mem_def.mp hc,
      Option.some.injEq] at hhead
    subst hhead
    exact absurd hstart (by decide)
  | @symbol spelling _ kind hsymbol =>
    have hpoint : ∀ entry ∈ Symbol.table, '.' ∈ entry.1.head? → entry.1 = ['.'] := by decide
    rw [Symbol.lexeme, String.toList_ofList] at hhead ⊢
    exact hpoint _ hsymbol hhead

/-- A lexeme does not end with a carriage return. -/
theorem Ends.trimReturns_text {keywords : Keywords} {l : Lexeme} {rest : List Char}
    (h : l.Ends keywords rest) : Text.trimReturns l.text.toList = l.text.toList := by
  have hlast : ∀ (test : Char → Bool) {text : List Char}, (∀ c ∈ text, test c = true) →
      test '\r' = false → text.getLast? ≠ some '\r' := by
    intro test text htext hreturn hlast
    have htest := htext _ (List.mem_of_getLast? hlast)
    rw [hreturn] at htest
    cases htest
  apply Text.trimReturns_of_last
  cases h with
  | numeral _ hwhole => exact hlast Char.isDigit (by simpa using hwhole) rfl
  | fraction _ hwhole _ hdigits =>
    refine hlast (fun c => c.isDigit || c == '.') ?_ rfl
    rw [String.toList_ofList, List.forall_mem_append, List.forall_mem_cons]
    exact ⟨fun c hc => by simp [hwhole c hc], by simp, fun c hc => by simp [hdigits c hc]⟩
  | text =>
    rw [String.toList_ofList, ← List.cons_append, List.getLast?_concat]
    decide
  | word hword => exact hlast Word.isPart (by simpa using hword.2) (by decide)
  | @symbol spelling _ kind hsymbol =>
    have htable : ∀ entry ∈ Symbol.table, ∀ c ∈ entry.1, (c != '\r') = true := by
      simp [Symbol.table]
    rw [Symbol.lexeme, String.toList_ofList]
    exact hlast (· != '\r') (htable _ hsymbol) rfl

end Lexeme

/-- The chosen token is spelled in Unicode, where it has a sign. -/
def Token.respelled (chosen : Token → Bool) (token : Token) : Token :=
  if chosen token then ⟨token.toLexeme.inUnicode, token.toPosition⟩ else token

/-- The token is chosen, and there is a sign for it. -/
def Token.isReplaced (chosen : Token → Bool) (token : Token) : Bool :=
  chosen token && (Symbol.sign? token.text).isSome

private theorem Token.respelled_of_isReplaced {chosen : Token → Bool} {token : Token}
    (h : token.isReplaced chosen = true) :
    token.respelled chosen = ⟨token.toLexeme.inUnicode, token.toPosition⟩ := by
  rw [Token.isReplaced, Bool.and_eq_true] at h
  exact if_pos h.1

private theorem Token.respelled_of_not_isReplaced {chosen : Token → Bool} {token : Token}
    (h : ¬token.isReplaced chosen = true) : token.respelled chosen = token := by
  rw [Token.isReplaced, Bool.and_eq_true, not_and_or, Option.not_isSome_iff_eq_none] at h
  rw [Token.respelled]
  rcases h with h | h
  · rw [if_neg h]
  · rw [Lexeme.inUnicode, Symbol.inUnicode_of_sign?_none h, ite_self]

/-- A token stays as it is, or its sign is put in its place. -/
theorem Token.respelled_cases (chosen : Token → Bool) (token : Token) :
    token.respelled chosen = token ∨
      ∃ sign, Symbol.sign? token.text = some sign ∧
        token.respelled chosen = ⟨token.toLexeme.inUnicode, token.toPosition⟩ := by
  by_cases h : token.isReplaced chosen = true
  · rw [Token.respelled_of_isReplaced h]
    rw [Token.isReplaced, Bool.and_eq_true] at h
    obtain ⟨sign, hsign⟩ := Option.isSome_iff_exists.mp h.2
    exact .inr ⟨sign, hsign, rfl⟩
  · exact .inl (Token.respelled_of_not_isReplaced h)

/-- Another spelling is of the same kind. -/
@[simp] theorem Token.kind_respelled (chosen : Token → Bool) (token : Token) :
    (token.respelled chosen).kind = token.kind := by
  unfold Token.respelled
  split <;> rfl

/-- A token is spelled otherwise in its place. -/
@[simp] theorem Token.toPosition_respelled (chosen : Token → Bool) (token : Token) :
    (token.respelled chosen).toPosition = token.toPosition := by
  unfold Token.respelled
  split <;> rfl

namespace Line

/-- The text, whose first character stands in the column `first`, with the signs of the tokens in
the places of their spellings. The tokens stand in the text, from left to right. -/
def respelled (first : Nat) (text : List Char) : List Token → List Char
  | [] => text
  | token :: rest =>
    text.take (token.column - first) ++ (Symbol.inUnicode token.text).toList ++
      respelled token.stop (text.drop (token.stop - first)) rest

/-- What stands in front of all the tokens stays. -/
theorem respelled_append {first : Nat} {piece : List Char} {tokens : List Token}
    (h : ∀ token ∈ tokens, first + piece.length ≤ token.column) (rest : List Char) :
    respelled first (piece ++ rest) tokens =
      piece ++ respelled (first + piece.length) rest tokens := by
  cases tokens with
  | nil => rfl
  | cons token tokens =>
    have hcolumn := h token List.mem_cons_self
    have htake : token.column - first = piece.length + (token.column - (first + piece.length)) := by
      omega
    have hdrop : token.stop - first = piece.length + (token.stop - (first + piece.length)) := by
      rw [Token.stop]
      omega
    rw [respelled, respelled, htake, hdrop, List.take_length_add_append,
      List.drop_length_add_append]
    simp only [List.append_assoc]

variable {keywords : Keywords} {chosen : Token → Bool} {line column : Nat}
  {text text' : List Char} {tokens : List Token}

/-- A text that is made up of the tokens, and beside it the same text with some tokens spelled in
Unicode. -/
inductive Respelling (keywords : Keywords) (chosen : Token → Bool) (line : Nat) :
    Nat → List Char → List Token → List Char → Prop where
  | finished {column : Nat} {text : List Char} :
    text = [] ∨ ['-', '-'] <+: text → Respelling keywords chosen line column text [] text
  | blank {column : Nat} {c : Char} {text text' : List Char} {tokens : List Token} :
    c = ' ' ∨ c = '\t' → Respelling keywords chosen line (column + 1) text tokens text' →
    Respelling keywords chosen line column (c :: text) tokens (c :: text')
  | token {column : Nat} {l : Lexeme} {rest rest' : List Char} {tokens : List Token} :
    l.Ends keywords rest →
    Respelling keywords chosen line (column + l.text.length) rest tokens rest' →
    Respelling keywords chosen line column (l.text.toList ++ rest) (l.place line column :: tokens)
      (((l.place line column).respelled chosen).text.toList ++ rest')

/-- **Replacing in place respells**: if the tokens of a text are replaced where they stand, the
result stands beside the text, and what follows the text stays. -/
theorem Tiled.respelling (h : Tiled keywords line column text tokens) (chosen : Token → Bool)
    (tail : List Char) :
    ∃ text', respelled column (text ++ tail) (tokens.filter (Token.isReplaced chosen)) =
        text' ++ tail ∧
      Respelling keywords chosen line column text tokens text' := by
  induction h with
  | finished hend => exact ⟨_, rfl, .finished hend⟩
  | @blank column c text tokens hc htiled ih =>
    obtain ⟨text', hreplaced, hrespelling⟩ := ih
    refine ⟨c :: text', ?_, .blank hc hrespelling⟩
    have hcolumns : ∀ token ∈ tokens.filter (Token.isReplaced chosen),
        column + [c].length ≤ token.column := fun token htoken =>
      (htiled.partitioned.slice token (List.mem_of_mem_filter htoken)).2.1
    have happend := respelled_append hcolumns (text ++ tail)
    rw [List.length_singleton, hreplaced] at happend
    exact happend
  | @token column l rest tokens hends htiled ih =>
    obtain ⟨rest', hreplaced, hrespelling⟩ := ih
    refine ⟨_, ?_, .token hends hrespelling⟩
    have hlength : l.text.length = l.text.toList.length := String.length_toList.symm
    by_cases htoken : (l.place line column).isReplaced chosen = true
    · rw [List.filter_cons_of_pos htoken, respelled, Token.respelled_of_isReplaced htoken]
      have hstop : (l.place line column).stop = column + l.text.length := rfl
      have hcolumn : (l.place line column).column = column := rfl
      rw [hstop, hcolumn, Nat.sub_self, Nat.add_sub_cancel_left, List.take_zero, List.nil_append,
        List.append_assoc l.text.toList, hlength, List.drop_left, ← hlength, hreplaced,
        List.append_assoc]
      rfl
    · rw [List.filter_cons_of_neg htoken, Token.respelled_of_not_isReplaced htoken]
      have hcolumns : ∀ token ∈ tokens.filter (Token.isReplaced chosen),
          column + l.text.toList.length ≤ token.column := by
        intro token hmem
        rw [← hlength]
        exact (htiled.partitioned.slice token (List.mem_of_mem_filter hmem)).2.1
      rw [List.append_assoc, respelled_append hcolumns, ← hlength, hreplaced, List.append_assoc]
      rfl

namespace Respelling

/-- A respelled text starts as the text does, or with a sign. -/
theorem head (h : Respelling keywords chosen line column text tokens text') :
    ∀ c ∈ text'.head?, c ∈ text.head? ∨ Symbol.IsSign c := by
  cases h with
  | finished => exact fun c hc => .inl hc
  | blank => exact fun c hc => .inl (by simpa using hc)
  | @token _ l rest rest' tokens hends _ =>
    intro c hc
    rcases (l.place line column).respelled_cases chosen with hsame | ⟨sign, hsign, hsame⟩
    · have hne := (Lead.split_of_ofText_eq_lexeme (Lead.ofText_of_ends hends)).2
      rw [hsame, Lexeme.toLexeme_place, List.head?_append_of_ne_nil _ hne] at hc
      exact .inl (by rwa [List.head?_append_of_ne_nil _ hne])
    · rw [hsame, Lexeme.toList_inUnicode hsign] at hc
      obtain rfl : sign = c := by simpa using hc
      exact .inr (Symbol.isSign_of_sign? hsign)

/-- What holds of the first character and of all signs holds of the first character of the respelled
text. -/
theorem forall_head {P : Char → Prop} (h : Respelling keywords chosen line column text tokens text')
    (htext : ∀ c ∈ text.head?, P c) (hsign : ∀ c, Symbol.IsSign c → P c) :
    ∀ c ∈ text'.head?, P c :=
  fun c hc => (h.head c hc).elim (htext c) (hsign c)

/-- No digit comes to stand behind a point at the start. -/
theorem point (h : Respelling keywords chosen line column text tokens text')
    (htext : ∀ d more, text = '.' :: d :: more → d.isDigit = false) :
    ∀ d more, text' = '.' :: d :: more → d.isDigit = false := by
  cases h with
  | finished => exact htext
  | blank hc =>
    rintro d more hpoint
    obtain ⟨rfl, -⟩ := List.cons.inj hpoint
    exact absurd hc (by decide)
  | @token _ l rest rest' tokens hends hrest =>
    rintro d more hpoint
    rcases (l.place line column).respelled_cases chosen with hsame | ⟨sign, hsign, hsame⟩
    · rw [hsame, Lexeme.toLexeme_place] at hpoint
      have hne := (Lead.split_of_ofText_eq_lexeme (Lead.ofText_of_ends hends)).2
      have hchars : l.text.toList = ['.'] := by
        refine hends.eq_point ?_
        rw [← List.head?_append_of_ne_nil _ hne, hpoint]
        rfl
      rw [hchars, List.singleton_append, List.cons.injEq] at hpoint
      rw [hchars] at htext
      refine hrest.forall_head (fun c hc => ?_) (fun c hc => hc.not_part.1) d (by simp [hpoint.2])
      obtain ⟨behind, rfl⟩ := List.head?_eq_some_iff.mp hc
      exact htext c behind rfl
    · rw [hsame, Lexeme.toList_inUnicode hsign] at hpoint
      obtain ⟨rfl, -⟩ := List.cons.inj hpoint
      exact absurd rfl ((Symbol.isSign_of_sign? hsign).ne (by decide))

/-- A lexeme in front of a text also ends in front of the respelled text. -/
theorem ends {l : Lexeme} (hends : l.Ends keywords text)
    (h : Respelling keywords chosen line column text tokens text') : l.Ends keywords text' := by
  cases hends with
  | numeral hne hwhole hdigit hpoint =>
    exact .numeral hne hwhole (h.forall_head hdigit fun c hc => hc.not_part.1) (h.point hpoint)
  | fraction hne hwhole hpart hdigits hdigit =>
    exact .fraction hne hwhole hpart hdigits (h.forall_head hdigit fun c hc => hc.not_part.1)
  | text hdenotes => exact .text hdenotes
  | word hword hpart => exact .word hword (h.forall_head hpart fun c hc => hc.not_part.2)
  | symbol hsymbol hminus hless =>
    refine .symbol hsymbol (fun hkind => ?_) fun hkind => ?_
    · exact h.forall_head (hminus hkind) fun c hc => ⟨hc.ne (by decide), hc.ne (by decide)⟩
    · exact h.forall_head (hless hkind) fun c hc => hc.ne (by decide)

/-- A token, spelled in Unicode or as it was, ends in front of the respelled text. -/
theorem respelled_ends {l : Lexeme} (hends : l.Ends keywords text)
    (h : Respelling keywords chosen line column text tokens text') (place : Position) :
    ((l.place place.line place.column).respelled chosen).Ends keywords text' := by
  rcases (l.place place.line place.column).respelled_cases chosen with hsame | ⟨sign, hsign, hsame⟩
  · rw [hsame]
    exact h.ends hends
  · rw [hsame]
    exact hends.inUnicode hsign text'

/-- **The respelled text has the same tokens**, spelled in Unicode where they are chosen, up to
columns. -/
theorem tiled (h : Respelling keywords chosen line column text tokens text') (column' : Nat) :
    ∃ tokens', Tiled keywords line column' text' tokens' ∧
      tokens'.map (Token.moved Position.lineOnly) =
        tokens.map fun token => (token.respelled chosen).moved Position.lineOnly := by
  induction h generalizing column' with
  | finished hend => exact ⟨[], .finished hend, rfl⟩
  | blank hc _ ih =>
    obtain ⟨tokens', htiled, hsame⟩ := ih (column' + 1)
    exact ⟨tokens', .blank hc htiled, hsame⟩
  | @token column l rest rest' tokens hends hrest ih =>
    have hends' := hrest.respelled_ends hends ⟨line, column⟩
    obtain ⟨tokens', htiled, hsame⟩ := ih (column' + (Token.respelled chosen _).text.length)
    refine ⟨_, .token hends' htiled, ?_⟩
    rw [List.map_cons, List.map_cons, hsame]
    simp only [Token.moved, Token.toPosition_respelled]
    rfl

/-- The respelled line has the same width, unless the line has nothing but blanks. -/
theorem indentWidth_eq (h : Respelling keywords chosen line column text tokens text')
    (hne : tokens ≠ []) : indentWidth text' = indentWidth text := by
  induction h with
  | finished => exact absurd rfl hne
  | blank _ _ ih => rw [indentWidth, indentWidth, ih hne]
  | @token column l rest rest' tokens hends hrest =>
    rw [hends.indentWidth_append, (hrest.respelled_ends hends ⟨line, column⟩).indentWidth_append]

/-- No carriage return comes to stand at the end. -/
theorem trimReturns_eq (h : Respelling keywords chosen line column text tokens text')
    (htrimmed : Text.trimReturns text = text) : Text.trimReturns text' = text' := by
  induction h with
  | finished => exact htrimmed
  | @blank _ c text text' _ hc _ ih =>
    have hreturn : c ≠ '\r' := by rcases hc with rfl | rfl <;> decide
    rw [Text.trimReturns_cons_of_ne hreturn, List.cons.injEq] at htrimmed
    rw [Text.trimReturns_cons_of_ne hreturn, ih htrimmed.2]
  | @token column l rest rest' tokens hends hrest ih =>
    rw [Text.trimReturns_append hends.trimReturns_text, List.append_cancel_left_eq] at htrimmed
    rw [Text.trimReturns_append (hrest.respelled_ends hends ⟨line, column⟩).trimReturns_text,
      ih htrimmed]

/-- Nothing but signs is put into a text. -/
theorem mem (h : Respelling keywords chosen line column text tokens text') :
    ∀ c ∈ text', c ∈ text ∨ Symbol.IsSign c := by
  induction h with
  | finished => exact fun c hc => .inl hc
  | blank _ _ ih =>
    rw [List.forall_mem_cons]
    exact ⟨.inl List.mem_cons_self, fun c hc => (ih c hc).imp_left (List.mem_cons_of_mem _)⟩
  | @token column l rest rest' tokens _ _ ih =>
    rw [List.forall_mem_append]
    refine ⟨fun c hc => ?_, fun c hc => (ih c hc).imp_left (List.mem_append_right _)⟩
    rcases (l.place line column).respelled_cases chosen with hsame | ⟨sign, hsign, hsame⟩
    · rw [hsame] at hc
      exact .inl (List.mem_append_left _ hc)
    · rw [hsame, Lexeme.toList_inUnicode hsign] at hc
      rw [List.mem_singleton.mp hc]
      exact .inr (Symbol.isSign_of_sign? hsign)

/-- A line in other spellings is one line. -/
theorem newline_notMem (h : Respelling keywords chosen line column text tokens text')
    (htext : '\n' ∉ text) : '\n' ∉ text' := by
  intro hmem
  rcases h.mem _ hmem with hmem | hsign
  · exact htext hmem
  · exact hsign.ne (by decide) rfl

end Respelling

end Line

end Slick
