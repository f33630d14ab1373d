import Slick.Proofs.Token.Boundary

/-!
# Lines are cut into tokens

The tokens of a line are pieces of it, in their order, each as long as it can be; between them there
are blanks only, and behind the last of them there may be a comment. A line that is not read has a
front that is, and right behind that front stands what cannot be read. `Tiled` says how a line is
made up, with one case for each thing that a text can start with, and `scanAt_eq_ok_iff` says that
this is what reading finds. Main statement: `Line.scan_faithful`.
-/

namespace Slick

variable {path : Option String}

namespace Line

variable {keywords : Keywords} {line column : Nat} {text : List Char} {tokens : List Token}

/-- The text, whose first character stands in the given column, is made up of the tokens with blanks
around them and of a comment behind them. -/
inductive Tiled (keywords : Keywords) (line : Nat) : Nat → List Char → List Token → Prop where
  | finished {column : Nat} {text : List Char} :
    text = [] ∨ ['-', '-'] <+: text → Tiled keywords line column text []
  | blank {column : Nat} {c : Char} {text : List Char} {tokens : List Token} :
    c = ' ' ∨ c = '\t' → Tiled keywords line (column + 1) text tokens →
    Tiled keywords line column (c :: text) tokens
  | token {column : Nat} {l : Lexeme} {rest : List Char} {tokens : List Token} :
    l.Ends keywords rest → Tiled keywords line (column + l.text.length) rest tokens →
    Tiled keywords line column (l.text.toList ++ rest) (l.place line column :: tokens)

/-- What is made up of tokens is read as these tokens. -/
theorem Tiled.scanAt_eq (h : Tiled keywords line column text tokens) :
    scanAt keywords path line column text = .ok tokens := by
  induction h with
  | finished hend => rw [Line.scanAt_eq, Lead.ofText_eq_finished_iff.mpr hend]
  | @blank column c text tokens hc _ ih =>
    have hlead : Lead.ofText keywords (c :: text) = .blank text := by rw [Lead.ofText, if_pos hc]
    rw [Line.scanAt_eq, hlead]
    exact ih
  | token hends _ ih =>
    rw [Line.scanAt_eq, Lead.ofText_of_ends hends]
    simp only [ih]
    rfl

/-- A text is made up of tokens, or it has such a front, right behind which stands something that
cannot be read. -/
theorem scanAt_cases (keywords : Keywords) (path : Option String) (line column : Nat)
    (text : List Char) :
    (∃ tokens, Tiled keywords line column text tokens) ∨
      ∃ front rest tokens cause offset, text = front ++ rest ∧
        Tiled keywords line column front tokens ∧ Lead.Flawed keywords rest offset cause ∧
        scanAt keywords path line column text =
          .error ⟨⟨⟨line, column + front.length + offset⟩, path⟩, cause⟩ := by
  induction hlength : text.length using Nat.strongRecOn generalizing column text with
  | ind size ih =>
    subst hlength
    cases hlead : Lead.ofText keywords text with
    | finished => exact .inl ⟨[], .finished (Lead.ofText_eq_finished_iff.mp hlead)⟩
    | blank rest =>
      obtain ⟨c, hc, rfl⟩ := Lead.split_of_ofText_eq_blank hlead
      have hscan : scanAt keywords path line column (c :: rest) =
          scanAt keywords path line (column + 1) rest := by
        rw [scanAt_eq, hlead]
      rcases ih rest.length (by simp) (column + 1) rest rfl with
        ⟨tokens, htiled⟩ | ⟨front, behind, tokens, cause, offset, rfl, htiled, hflawed, herror⟩
      · exact .inl ⟨tokens, .blank hc htiled⟩
      · refine .inr ⟨c :: front, behind, tokens, cause, offset, rfl, .blank hc htiled, hflawed, ?_⟩
        rw [hscan, herror, List.length_cons, Nat.add_assoc column, Nat.add_comm 1]
    | lexeme l rest =>
      obtain ⟨rfl, hends⟩ := Lead.ofText_eq_lexeme_iff.mp hlead
      have hne := (Lead.split_of_ofText_eq_lexeme hlead).2
      have hshort : rest.length < (l.text.toList ++ rest).length := by
        have := List.length_pos_iff.mpr hne
        rw [List.length_append]
        omega
      have hscan : scanAt keywords path line column (l.text.toList ++ rest) =
          (scanAt keywords path line (column + l.text.length) rest).map
            (l.place line column :: ·) := by
        rw [scanAt_eq, hlead]
      rcases ih rest.length hshort (column + l.text.length) rest rfl with
        ⟨tokens, htiled⟩ | ⟨front, behind, tokens, cause, offset, rfl, htiled, hflawed, herror⟩
      · exact .inl ⟨_, .token hends htiled⟩
      · -- The lexeme stays as it is when the text is cut off behind the front.
        have hfront := hends.of_prefix (List.prefix_append front behind)
        refine .inr ⟨l.text.toList ++ front, behind, _, cause, offset, by simp,
          .token hfront htiled, hflawed, ?_⟩
        rw [hscan, herror, List.length_append, String.length_toList, Nat.add_assoc column]
        rfl
    | flaw cause offset =>
      refine .inr ⟨[], text, [], cause, offset, rfl, .finished (.inl rfl),
        Lead.flawed_of_ofText hlead, ?_⟩
      rw [scanAt_eq, hlead]
      rfl

/-- Reading finds exactly the tokens that a text is made up of. -/
theorem scanAt_eq_ok_iff :
    scanAt keywords path line column text = .ok tokens ↔
      Tiled keywords line column text tokens := by
  constructor
  · intro h
    rcases scanAt_cases keywords path line column text with
      ⟨tokens', htiled⟩ | ⟨_, _, _, _, _, _, _, _, herror⟩
    · rw [htiled.scanAt_eq] at h
      cases h
      exact htiled
    · rw [herror] at h
      cases h
  · exact Tiled.scanAt_eq

end Line

/-- A lexeme is as long as it can be, by its kind or its spelling and by what follows it. -/
structure Lexeme.Longest (l : Lexeme) (rest : List Char) : Prop where
  number : l.kind = .number → (∀ c ∈ rest.head?, c.isDigit = false) ∧
    ∃ whole, whole ≠ [] ∧ (∀ c ∈ whole, c.isDigit = true) ∧
      ((l.text.toList = whole ∧ ∀ d more, rest = '.' :: d :: more → d.isDigit = false) ∨
        ∃ part, part ≠ [] ∧ (∀ c ∈ part, c.isDigit = true) ∧ l.text.toList = whole ++ '.' :: part)
  word : l.kind = .ident ∨ l.kind = .uident ∨ l.kind = .keyword ∨ (l.kind = .fn ∧ l.text = "fn") →
    ∀ c ∈ rest.head?, Word.isPart c = false
  minus : l.kind = .minus ∨ l.text = "-" → ∀ c ∈ rest.head?, c ≠ '-' ∧ c ≠ '>'
  less : l.kind = .lt ∨ l.text = "<" → ∀ c ∈ rest.head?, c ≠ '='
  greater : l.kind = .gt ∨ l.text = ">" → ∀ c ∈ rest.head?, c ≠ '='

/-- Symbols are no words, and none of them is spelled as the function word. -/
theorem Symbol.not_word : ∀ entry ∈ table, ¬(entry.2 = .ident ∨ entry.2 = .uident ∨
    entry.2 = .keyword ∨ (entry.2 = .fn ∧ entry.1 = ['f', 'n'])) := by
  decide

/-- A word is a sign for a function, a reserved word or a name. -/
theorem Word.lexeme_kind (keywords : Keywords) (word : List Char) :
    (lexeme keywords word).kind ∈ [.fn, .keyword, .uident, .ident] := by
  simp only [lexeme]
  repeat' split
  all_goals simp

/-- A lexeme that is spelled as a symbol of one sign is that symbol, for no numeral, no text literal
and no word starts with a sign. -/
theorem Lexeme.Ends.kind_of_sign {keywords : Keywords} {l : Lexeme} {rest : List Char} {sign : Char}
    {kind : Kind} (h : l.Ends keywords rest) (hsign : ([sign], kind) ∈ Symbol.table)
    (htext : l.text.toList = [sign]) : l.kind = kind := by
  obtain ⟨-, hdigit, hquote⟩ := Symbol.head_plain _ hsign sign rfl
  cases h with
  | @numeral whole _ hne hwhole =>
    rw [String.toList_ofList] at htext
    rw [hwhole sign (by simp [htext])] at hdigit
    cases hdigit
  | @fraction whole part _ hne =>
    rw [String.toList_ofList] at htext
    have hlength := congrArg List.length htext
    have hwhole := List.length_pos_iff.mpr hne
    simp only [List.length_append, List.length_cons, List.length_nil] at hlength
    omega
  | text =>
    rw [String.toList_ofList, List.cons.injEq] at htext
    exact absurd htext.1.symm hquote
  | @word word _ hword =>
    rw [Word.lexeme_text, String.toList_ofList] at htext
    obtain ⟨c, hc, hstart⟩ := hword.1
    obtain rfl : sign = c := by simpa [htext] using hc
    rw [not_isStart_of_symbol _ hsign sign rfl] at hstart
    cases hstart
  | symbol hsymbol =>
    rw [Symbol.lexeme, String.toList_ofList] at htext
    exact congrArg Prod.snd (symbol_unique _ hsymbol _ hsign htext)

/-- What follows a sign, by its kind: nothing that makes it a longer symbol or a comment. -/
private theorem Lexeme.Ends.behind_sign {keywords : Keywords} {l : Lexeme} {rest : List Char}
    (h : l.Ends keywords rest) :
    (l.kind = .minus → ∀ c ∈ rest.head?, c ≠ '-' ∧ c ≠ '>') ∧
      (l.kind = .lt ∨ l.kind = .gt → ∀ c ∈ rest.head?, c ≠ '=') := by
  cases h with
  | numeral | fraction | text => exact ⟨nofun, nofun⟩
  | @word word =>
    have hkind := Word.lexeme_kind keywords word
    refine ⟨fun hminus => ?_, fun hless => ?_⟩
    · simp [hminus] at hkind
    · rcases hless with hless | hless <;> simp [hless] at hkind
  | symbol _ hminus hless => exact ⟨hminus, hless⟩

/-- A lexeme that ends in front of the rest is as long as it can be. -/
theorem Lexeme.Ends.longest {keywords : Keywords} {l : Lexeme} {rest : List Char}
    (h : l.Ends keywords rest) : l.Longest rest := by
  have hspelled : ∀ {sign : Char} {kind : Kind}, ([sign], kind) ∈ Symbol.table →
      l.kind = kind ∨ l.text = String.ofList [sign] → l.kind = kind := by
    intro sign kind hsign hl
    refine hl.elim id fun htext => h.kind_of_sign hsign ?_
    rw [htext, String.toList_ofList]
  obtain ⟨hminus, hless⟩ := h.behind_sign
  refine ⟨?_, ?_, fun hl => hminus (hspelled (by decide) hl),
    fun hl => hless (.inl (hspelled (by decide) hl)),
    fun hl => hless (.inr (hspelled (by decide) hl))⟩
  · intro hnumber
    cases h with
    | @numeral whole _ hne hwhole hdigit hpoint =>
      exact ⟨hdigit, whole, hne, hwhole, .inl ⟨by simp, hpoint⟩⟩
    | @fraction whole part _ hne hwhole hpart hdigits hdigit =>
      exact ⟨hdigit, whole, hne, hwhole, .inr ⟨part, hpart, hdigits, by simp⟩⟩
    | text => cases hnumber
    | word => exact absurd hnumber (word_not_literal _ _).1
    | symbol hsymbol => exact absurd hnumber (symbol_not_literal _ hsymbol).1
  · intro hword
    cases h with
    | numeral | fraction | text => simp at hword
    | word _ hpart => exact hpart
    | @symbol spelling _ kind hsymbol =>
      have hspelling : String.ofList spelling = "fn" → spelling = ['f', 'n'] := by
        intro heq
        simpa using congrArg String.toList heq
      refine absurd ?_ (Symbol.not_word _ hsymbol)
      exact hword.imp id (.imp id (.imp id (.imp id hspelling)))

/-- The column right behind a token. -/
def Token.stop (token : Token) : Nat := token.column + token.text.length

namespace Line

/-- A text from a column on, when its first character stands in the column `first`. -/
def fromColumn (first : Nat) (text : List Char) (column : Nat) : List Char :=
  text.drop (column - first)

/-- The column right behind the last token. -/
def stopAfter (first : Nat) (tokens : List Token) : Nat :=
  (tokens.getLast?.map Token.stop).getD first

/-- How a text, whose first character stands in the column `first`, is cut into tokens. -/
structure Partitioned (line first : Nat) (text : List Char) (tokens : List Token) : Prop where
  /-- A token is the piece of the text that stands at its place. -/
  slice : ∀ token ∈ tokens, token.line = line ∧ first ≤ token.column ∧ token.text ≠ "" ∧
    token.text.toList <+: fromColumn first text token.column
  /-- A token starts behind the end of those in front of it. -/
  ordered : tokens.Pairwise fun early late => early.stop ≤ late.column
  /-- In front of a token there are blanks and other tokens only. -/
  gaps : ∀ column, first ≤ column → (∃ token ∈ tokens, column < token.column) →
    (∀ token ∈ tokens, ¬(token.column ≤ column ∧ column < token.stop)) →
    ∀ c ∈ (fromColumn first text column).head?, c = ' ' ∨ c = '\t'
  /-- Behind the last token there are blanks and then at most a comment. -/
  trailing : ∃ blanks comment, fromColumn first text (stopAfter first tokens) = blanks ++ comment ∧
    (∀ c ∈ blanks, c = ' ' ∨ c = '\t') ∧ (comment = [] ∨ ['-', '-'] <+: comment)
  longest : ∀ token ∈ tokens, token.toLexeme.Longest (fromColumn first text token.stop)

private theorem fromColumn_append {first column : Nat} {piece rest : List Char}
    (h : first + piece.length ≤ column) :
    fromColumn first (piece ++ rest) column = fromColumn (first + piece.length) rest column := by
  have hsub : column - first = piece.length + (column - (first + piece.length)) := by omega
  rw [fromColumn, fromColumn, hsub, List.drop_length_add_append]

private theorem fromColumn_self (first : Nat) (text : List Char) :
    fromColumn first text first = text := by
  rw [fromColumn, Nat.sub_self, List.drop_zero]

private theorem le_stopAfter {first : Nat} {tokens : List Token}
    (h : ∀ token ∈ tokens, first ≤ token.column) : first ≤ stopAfter first tokens := by
  cases hlast : tokens.getLast? with
  | none => simp [stopAfter, hlast]
  | some last =>
    have := h last (List.mem_of_getLast? hlast)
    simp only [stopAfter, hlast, Option.map_some, Option.getD_some, Token.stop]
    omega

private theorem stopAfter_cons (first : Nat) (token : Token) (tokens : List Token) :
    stopAfter first (token :: tokens) = stopAfter token.stop tokens := by
  cases hlast : tokens.getLast? <;> simp [stopAfter, List.getLast?_cons, hlast]

namespace Partitioned

variable {first : Nat} {piece rest : List Char}

/-- With a piece in front of the text the tokens are still the pieces at their places. -/
theorem slice_append (h : Partitioned line (first + piece.length) rest tokens) :
    ∀ token ∈ tokens, token.line = line ∧ first ≤ token.column ∧ token.text ≠ "" ∧
      token.text.toList <+: fromColumn first (piece ++ rest) token.column := by
  intro token htoken
  obtain ⟨hline, hfirst, hne, hprefix⟩ := h.slice token htoken
  refine ⟨hline, by omega, hne, ?_⟩
  rwa [fromColumn_append hfirst]

private theorem longest_append (h : Partitioned line (first + piece.length) rest tokens) :
    ∀ token ∈ tokens, token.toLexeme.Longest (fromColumn first (piece ++ rest) token.stop) := by
  intro token htoken
  obtain ⟨-, hfirst, -, -⟩ := h.slice token htoken
  rw [fromColumn_append (by rw [Token.stop]; omega)]
  exact h.longest token htoken

private theorem cons_blank {c : Char} (hc : c = ' ' ∨ c = '\t')
    (h : Partitioned line (first + 1) rest tokens) : Partitioned line first (c :: rest) tokens := by
  have happend : c :: rest = [c] ++ rest := rfl
  refine ⟨happend ▸ h.slice_append, h.ordered, ?_, ?_, happend ▸ h.longest_append⟩
  · intro column hcolumn hlater huncovered d hd
    obtain rfl | hbehind := Nat.eq_or_lt_of_le hcolumn
    · rw [fromColumn_self] at hd
      cases hd
      exact hc
    · rw [happend, fromColumn_append hbehind] at hd
      exact h.gaps column hbehind hlater huncovered d hd
  · obtain ⟨blanks, comment, hrest, hblanks, hcomment⟩ := h.trailing
    cases tokens with
    | nil =>
      refine ⟨c :: blanks, comment, ?_, ?_, hcomment⟩
      · have hempty : ∀ column, stopAfter column [] = column := fun _ => rfl
        rw [hempty, fromColumn_self] at hrest ⊢
        rw [hrest, List.cons_append]
      · rw [List.forall_mem_cons]
        exact ⟨hc, hblanks⟩
    | cons token tokens =>
      refine ⟨blanks, comment, ?_, hblanks, hcomment⟩
      have hle := le_stopAfter fun token htoken => (h.slice token htoken).2.1
      rw [stopAfter_cons] at hrest hle ⊢
      rwa [happend, fromColumn_append hle]

private theorem cons_token {l : Lexeme} (hends : l.Ends keywords rest) (hne : l.text.toList ≠ [])
    (h : Partitioned line (first + l.text.length) rest tokens) :
    Partitioned line first (l.text.toList ++ rest) (l.place line first :: tokens) := by
  have hstop : (l.place line first).stop = first + l.text.length := rfl
  rw [← String.length_toList] at h hstop
  have hbehind : fromColumn first (l.text.toList ++ rest) (l.place line first).stop = rest := by
    rw [hstop, fromColumn_append (Nat.le_refl _), fromColumn_self]
  refine ⟨?_, ?_, ?_, ?_, ?_⟩
  · rw [List.forall_mem_cons]
    refine ⟨⟨rfl, Nat.le_refl _, ?_, ?_⟩, h.slice_append⟩
    · rintro hempty
      exact hne (by simpa using congrArg String.toList hempty)
    · rw [Lexeme.column_place, fromColumn_self]
      exact List.prefix_append _ _
  · rw [List.pairwise_cons]
    refine ⟨fun token htoken => ?_, h.ordered⟩
    rw [hstop]
    exact (h.slice token htoken).2.1
  · intro column hcolumn hlater huncovered c hc
    rw [List.forall_mem_cons] at huncovered
    have hafter : first + l.text.toList.length ≤ column := by
      have := huncovered.1
      rw [hstop, Lexeme.column_place] at this
      omega
    rw [fromColumn_append hafter] at hc
    refine h.gaps column hafter ?_ huncovered.2 c hc
    obtain ⟨token, htoken, hlt⟩ := hlater
    rcases List.mem_cons.mp htoken with rfl | htoken
    · rw [Lexeme.column_place] at hlt
      omega
    · exact ⟨token, htoken, hlt⟩
  · obtain ⟨blanks, comment, hrest, hblanks, hcomment⟩ := h.trailing
    refine ⟨blanks, comment, ?_, hblanks, hcomment⟩
    have hle := le_stopAfter fun token htoken => (h.slice token htoken).2.1
    rw [stopAfter_cons, hstop, fromColumn_append hle, hrest]
  · rw [List.forall_mem_cons, hbehind]
    exact ⟨hends.longest, h.longest_append⟩

end Partitioned

/-- A text that is made up of tokens is cut into them. -/
theorem Tiled.partitioned (h : Tiled keywords line column text tokens) :
    Partitioned line column text tokens := by
  induction h with
  | finished hend =>
    refine ⟨by simp, .nil, by simp, ⟨[], _, ?_, by simp, hend⟩, by simp⟩
    exact fromColumn_self _ _
  | blank hc _ ih => exact ih.cons_blank hc
  | token hends _ ih =>
    exact ih.cons_token hends (Lead.split_of_ofText_eq_lexeme (Lead.ofText_of_ends hends)).2

/-- A line that cannot be read: a front of it can, and what stands right behind that front cannot.
The flaw names the character there, or, for an escape, the one in the text literal that starts
there. -/
def Broken (keywords : Keywords) (path : Option String) (line : Nat) (text : List Char)
    (flaw : Flaw) : Prop :=
  ∃ front rest tokens offset, text = front ++ rest ∧ scan keywords path line front = .ok tokens ∧
    Lead.Flawed keywords rest offset flaw.cause ∧ flaw.path = path ∧ flaw.line = line ∧
    flaw.column = front.length + 1 + offset

/-- **Lines are read faithfully**: they are cut into tokens, each as long as it can be, with nothing
lost between them but blanks and comments, or they break at the place that the flaw names. -/
theorem scan_faithful (keywords : Keywords) (path : Option String) (line : Nat)
    (text : List Char) :
    (∃ tokens, scan keywords path line text = .ok tokens ∧ Partitioned line 1 text tokens) ∨
      ∃ flaw, scan keywords path line text = .error flaw ∧ Broken keywords path line text flaw := by
  rcases scanAt_cases keywords path line 1 text with
    ⟨tokens, htiled⟩ | ⟨front, rest, tokens, cause, offset, htext, htiled, hflawed, herror⟩
  · exact .inl ⟨tokens, htiled.scanAt_eq, htiled.partitioned⟩
  · refine .inr ⟨_, herror, front, rest, tokens, offset, htext, htiled.scanAt_eq, hflawed, rfl, rfl,
      ?_⟩
    rw [Nat.add_comm front.length]

end Line

end Slick
