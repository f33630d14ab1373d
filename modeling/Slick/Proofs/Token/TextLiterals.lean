import Slick.Proofs.Line.Pieces

/-!
# Text literals are read back

A text that is written as a literal is a source of its own: one token with the text as its value.
The other way round, a literal in a source is written with the same characters again, except that a
raw tab becomes an escape; the text itself is kept in any case. Main statement:
`Value.quotedText_round_trips`.
-/

namespace Slick

open Layout

variable {path : Option String}

namespace Lexeme

variable {keywords : Keywords} {l : Lexeme}

/-- The spelling of a lexeme is a source with a single token. -/
theorem Written.tokenize_eq (h : l.Written keywords) :
    tokenize keywords l.text path = .ok [l.place 1 1, Lexeme.newline.place 1 (l.text.length + 1),
      Lexeme.eof.place 2 1] := by
  have htiled : Line.Tiled keywords 1 1 (l.text.toList ++ []) [l.place 1 1] :=
    .token h.ends (.finished (.inl rfl))
  rw [List.append_nil] at htiled
  have hwidth : Line.indentWidth l.text.toList = 0 := by
    simpa using h.ends.indentWidth_append []
  have hscan : Line.scan keywords path 1 l.text.toList = .ok [l.place 1 1] := htiled.scanAt_eq
  have htokens := tokenize_line h.newline h.last hwidth (by simp) hscan
  rw [String.ofList_toList, String.length_toList] at htokens
  exact htokens

/-- A text literal on one line, given by the characters between its quotes and the text that they
denote. -/
theorem written_literal {written value : List Char} (hdenotes : TextLiteral.Denotes written value)
    (hnewline : '\n' ∉ written) :
    Written keywords
      ⟨.text, String.ofList ('\'' :: (written ++ ['\''])), .text (String.ofList value)⟩ := by
  refine ⟨.text hdenotes, ?_, ?_⟩
  · simpa using hnewline
  · rw [String.toList_ofList, ← List.cons_append, List.getLast?_concat]
    decide

end Lexeme

/-- The tokens of a source that consists of one text literal, given by its spelling and its text. -/
def Layout.literalTokens (spelling s : String) : List Token :=
  [(Lexeme.mk .text spelling (.text s)).place 1 1,
    Lexeme.newline.place 1 (spelling.length + 1), Lexeme.eof.place 2 1]

/-- The literal of a text is a source with a single token. -/
theorem Value.tokenize_quotedText (keywords : Keywords) (s : String) :
    tokenize keywords (quotedText s) path = .ok (literalTokens (quotedText s) s) := by
  have hwritten : (Lexeme.mk .text (quotedText s) (.text s)).Written keywords :=
    Lexeme.written_text s
  exact hwritten.tokenize_eq

/-- A text literal of a source has a text that its characters denote, and no line feed is among
them. -/
theorem Layout.denotes_of_tokenize {keywords : Keywords} {source : String} {tokens : List Token}
    (h : tokenize keywords source path = .ok tokens) {token : Token} (htoken : token ∈ tokens)
    (hkind : token.kind = .text) :
    ∃ written value, TextLiteral.Denotes written value ∧ '\n' ∉ written ∧
      token.text = String.ofList ('\'' :: (written ++ ['\''])) ∧
      token.value = .text (String.ofList value) := by
  obtain ⟨body, final, hreaches, rfl⟩ := tokenize_reaches h
  have hbody : token ∈ body := by
    rcases List.mem_append.mp htoken with hbody | hclose
    · exact hbody
    · rw [close, List.mem_append, List.mem_map, List.mem_singleton] at hclose
      rcases hclose with ⟨_, -, rfl⟩ | rfl <;> cases hkind
  obtain ⟨line, hline, number, scanned, hscan, hmem⟩ :=
    hreaches.exists_scan token hbody (by rw [hkind]; rfl)
  have hnewline : '\n' ∉ token.text.toList := by
    intro hin
    have hslice := ((Line.scanAt_eq_ok_iff.mp hscan).partitioned.slice token hmem).2.2.2
    obtain ⟨count, hreturns⟩ := Text.exists_trimReturns_append line
    refine Text.newline_notMem_of_mem_lines hline ?_
    rw [hreturns]
    exact List.mem_append_left _ (List.mem_of_mem_drop (hslice.subset hin))
  obtain ⟨-, text, rest, hlead⟩ := Line.lead_of_mem_scan hscan token hmem
  have hends := Lead.ends_of_ofText hlead
  generalize token.toLexeme = l at hends hkind hnewline ⊢
  cases hends with
  | numeral | fraction => cases hkind
  | @text written value _ hdenotes =>
    refine ⟨written, value, hdenotes, fun hin => hnewline ?_, rfl, rfl⟩
    simp [hin]
  | word => exact absurd hkind (Lexeme.word_not_literal _ _).2
  | symbol hsymbol => exact absurd hkind (Lexeme.symbol_not_literal _ hsymbol).2

/-- **Text literals are read back in both directions.** The literal of any text is read as one token
with that text as its value, then the end of the line and the end of the source. A text literal of
any source has a text as its value, the literal of that text is spelled as the token is exactly if
the token has no raw tab, and it is read as the same text in any case. -/
theorem Value.quotedText_round_trips (keywords : Keywords) (path : Option String) :
    (∀ s, tokenize keywords (quotedText s) path = .ok (literalTokens (quotedText s) s)) ∧
    ∀ source tokens, tokenize keywords source path = .ok tokens →
      ∀ token ∈ tokens, token.kind = .text →
        ∃ s, token.value = .text s ∧
          (quotedText s = token.text ↔ '\t' ∉ token.text.toList) ∧
          tokenize keywords (quotedText s) path = .ok (literalTokens (quotedText s) s) := by
  refine ⟨tokenize_quotedText keywords, fun source tokens h token htoken hkind => ?_⟩
  obtain ⟨written, value, hdenotes, hnewline, htext, hvalue⟩ := denotes_of_tokenize h htoken hkind
  refine ⟨String.ofList value, hvalue, ?_, tokenize_quotedText keywords _⟩
  have hquoted : quotedText (String.ofList value) = token.text ↔
      value.flatMap TextLiteral.encodeChar = written := by
    rw [htext, quotedText, String.ofList_inj, String.toList_ofList, TextLiteral.encode]
    simp
  have htab : '\t' ∉ token.text.toList ↔ '\t' ∉ written := by
    rw [htext]
    simp
  rw [hquoted, hdenotes.encode_eq_iff, htab]
  exact and_iff_left hnewline

/-- A literal with a raw tab has the text of the literal with an escape, but it is not spelled in
the same way. -/
theorem Value.quotedText_round_trips_tab :
    tokenize Keywords.standard "'a\tb'" none = .ok (literalTokens "'a\tb'" "a\tb") ∧
      quotedText "a\tb" ≠ "'a\tb'" ∧ quotedText "a\tb" = "'a\\tb'" ∧
      tokenize Keywords.standard "'a\\tb'" none = .ok (literalTokens "'a\\tb'" "a\tb") := by
  have hdenotes : TextLiteral.Denotes ['a', '\t', 'b'] ['a', '\t', 'b'] :=
    .plain (by decide) (by decide) (.plain (by decide) (by decide)
      (.plain (by decide) (by decide) .nil))
  have htokens : tokenize Keywords.standard "'a\tb'" none = .ok (literalTokens "'a\tb'" "a\tb") :=
    (Lexeme.written_literal hdenotes (by decide)).tokenize_eq
  have hquoted : quotedText "a\tb" = "'a\\tb'" := by decide
  obtain ⟨s, hvalue, hspelled, hread⟩ :=
    (quotedText_round_trips Keywords.standard none).2 _ _ htokens
    _ List.mem_cons_self rfl
  cases hvalue
  rw [hquoted] at hread
  exact ⟨htokens, fun h => hspelled.mp h (by decide), hquoted, hread⟩

end Slick
