import Slick.Proofs.Layout.Padding
import Slick.Source

/-!
# Reserved words only classify

The reserved words decide what a word is called and nothing else. Under other reserved words a
source is cut into the same lexemes at the same places, or it has the same flaw;
`Token.reclassified` says what becomes of each token, and `tokenize_reclassified` that this is all
there is to it. So a source none of whose words changes its class is read as the same program. Main
statement: `Program.reserved_words_classify`.
-/

namespace Slick

variable {path : Option String}

/-- The kind of a word that is not reserved. -/
def Word.nameKind (word : String) : Kind := if isCapitalized word.toList then .uident else .ident

/-- A word that is reserved or not by choice: neither the function word nor a truth value. -/
def Word.IsOrdinary (word : String) : Prop :=
  IsWord word.toList ∧ word ≠ "fn" ∧ word ≠ "True" ∧ word ≠ "False"

/-- Two tokens that differ at most in being reserved. -/
structure Token.Reclassified (K K' : Keywords) (token token' : Token) : Prop where
  text : token.text = token'.text
  value : token.value = token'.value
  place : token.toPosition = token'.toPosition
  /-- The kinds are the same, except that of an ordinary word that is reserved on one side only. -/
  same : (Word.IsOrdinary token.text → (token.text ∈ K ↔ token.text ∈ K')) →
    token.kind = token'.kind
  first : Word.IsOrdinary token.text → token.text ∈ K → token.text ∉ K' →
    token.kind = .keyword ∧ token'.kind = Word.nameKind token.text
  second : Word.IsOrdinary token.text → token.text ∉ K → token.text ∈ K' →
    token.kind = Word.nameKind token.text ∧ token'.kind = .keyword

/-- Two readings under different reserved words: the same flaw, or tokens that differ at most in
being reserved. -/
inductive Layout.Reclassified (K K' : Keywords) :
    Except Flaw (List Token) → Except Flaw (List Token) → Prop where
  | ok {tokens tokens' : List Token} :
    List.Forall₂ (Token.Reclassified K K') tokens tokens' →
    Reclassified K K' (.ok tokens) (.ok tokens')
  | error (flaw : Flaw) : Reclassified K K' (.error flaw) (.error flaw)

namespace Lexeme

/-- The lexeme under other reserved words. -/
def reclassified (K : Keywords) (l : Lexeme) : Lexeme :=
  if Word.IsWord l.text.toList then Word.lexeme K l.text.toList else l

private theorem reclassified_of_not_word {l : Lexeme} (h : ¬Word.IsWord l.text.toList)
    (K : Keywords) :
    l.reclassified K = l := if_neg h

/-- A word of another class is spelled alike. -/
@[simp] theorem text_reclassified (K : Keywords) (l : Lexeme) :
    (l.reclassified K).text = l.text := by
  unfold reclassified
  split
  · rw [Word.lexeme_text, String.ofList_toList]
  · rfl

/-- What does not start like a word is none. -/
theorem not_isWord_of_head {text : List Char} {c : Char} (hc : c ∈ text.head?)
    (hstart : Word.isStart c = false) : ¬Word.IsWord text := by
  rintro ⟨⟨d, hd, hword⟩, -⟩
  rw [Option.mem_def.mp hc, Option.mem_def, Option.some.injEq] at hd
  rw [← hd, hstart] at hword
  cases hword

private theorem isStart_of_lt {c : Char} (h : c.toNat < 0x41) : Word.isStart c = false := by
  rw [Bool.eq_false_iff]
  intro hstart
  exact absurd (Word.le_toNat_of_isStart hstart) (Nat.not_le.mpr h)

private theorem isStart_of_isDigit {c : Char} (h : c.isDigit = true) : Word.isStart c = false := by
  have hnine : '9'.toNat < 0x41 := by decide
  exact isStart_of_lt (Nat.lt_of_le_of_lt (Char.isDigit_iff_toNat.mp h).2 hnine)

/-- A lexeme that ends is a word, or no word at all, and then reserved words do not matter to it. -/
theorem Ends.word_or_not {K : Keywords} {l : Lexeme} {rest : List Char} (h : l.Ends K rest)
    (K' : Keywords) :
    (∃ word, Word.IsWord word ∧ l = Word.lexeme K word ∧ ∀ c ∈ rest.head?, Word.isPart c = false) ∨
      ¬Word.IsWord l.text.toList ∧ l.Ends K' rest := by
  cases h with
  | @numeral whole _ hne hwhole hdigit hpoint =>
    refine .inr ⟨?_, .numeral hne hwhole hdigit hpoint⟩
    obtain ⟨d, more, rfl⟩ := List.exists_cons_of_ne_nil hne
    exact not_isWord_of_head (by simp) (isStart_of_isDigit (hwhole d List.mem_cons_self))
  | @fraction whole part _ hne hwhole hpart hdigits hdigit =>
    refine .inr ⟨?_, .fraction hne hwhole hpart hdigits hdigit⟩
    obtain ⟨d, more, rfl⟩ := List.exists_cons_of_ne_nil hne
    exact not_isWord_of_head (by simp) (isStart_of_isDigit (hwhole d List.mem_cons_self))
  | text hdenotes =>
    refine .inr ⟨?_, .text hdenotes⟩
    exact not_isWord_of_head (by simp) (isStart_of_lt (show '\''.toNat < 0x41 by decide))
  | word hword hpart => exact .inl ⟨_, hword, rfl, hpart⟩
  | @symbol spelling _ kind hmem hminus hless =>
    refine .inr ⟨?_, .symbol hmem hminus hless⟩
    obtain ⟨c, more, rfl⟩ := List.exists_cons_of_ne_nil (Symbol.spelling_ne_nil _ hmem)
    exact not_isWord_of_head (by simp [Symbol.lexeme]) (not_isStart_of_symbol _ hmem c rfl)

/-- A lexeme ends at the same place under other reserved words. -/
theorem Ends.reclassified {K : Keywords} {l : Lexeme} {rest : List Char} (h : l.Ends K rest)
    (K' : Keywords) : (l.reclassified K').Ends K' rest := by
  rcases h.word_or_not K' with ⟨word, hword, rfl, hpart⟩ | ⟨hword, hends⟩
  · have htext : (Word.lexeme K word).text.toList = word := by simp
    rw [Lexeme.reclassified, htext, if_pos hword]
    exact .word hword hpart
  · rwa [reclassified_of_not_word hword]

end Lexeme

namespace Lead

/-- What a text starts with under other reserved words. -/
def reclassified (K : Keywords) : Lead → Lead
  | lexeme l rest => lexeme (l.reclassified K) rest
  | lead => lead

/-- Where nothing can be read, reserved words do not matter. -/
theorem ofText_flaw {K : Keywords} {text : List Char} {cause : Cause} {offset : Nat}
    (h : ofText K text = flaw cause offset) (K' : Keywords) :
    ofText K' text = flaw cause offset := by
  cases text with
  | nil => cases h
  | cons c rest =>
    rw [ofText] at h ⊢
    split_ifs at h ⊢
    · exact h
    · exact h
    · cases h
    · exact h

/-- **What a text starts with** is the same for other reserved words, up to the class of a word. -/
theorem ofText_reclassified (K K' : Keywords) (text : List Char) :
    ofText K' text = (ofText K text).reclassified K' := by
  cases hlead : ofText K text with
  | finished => exact ofText_eq_finished_iff.mpr (ofText_eq_finished_iff.mp hlead)
  | blank rest =>
    obtain ⟨c, hc, rfl⟩ := split_of_ofText_eq_blank hlead
    rw [ofText, if_pos hc, reclassified]
    simp
  | lexeme l rest =>
    obtain ⟨rfl, hends⟩ := ofText_eq_lexeme_iff.mp hlead
    have hread := ofText_of_ends (hends.reclassified K')
    rw [Lexeme.text_reclassified] at hread
    exact hread
  | flaw cause offset => exact ofText_flaw hlead K'

end Lead

/-- The token under other reserved words. -/
def Token.reclassified (K : Keywords) (token : Token) : Token :=
  ⟨token.toLexeme.reclassified K, token.toPosition⟩

private theorem Lexeme.reclassified_place (K : Keywords) (l : Lexeme) (line column : Nat) :
    (l.place line column).reclassified K = (l.reclassified K).place line column := rfl

/-- However a word is classified, it is no bracket. -/
theorem Word.depthStep_lexeme (K : Keywords) (word : List Char) (depth : Nat) :
    Line.depthStep depth (Word.lexeme K word).kind = depth := by
  have hkind := Word.lexeme_kind K word
  simp only [List.mem_cons, List.not_mem_nil, or_false] at hkind
  rcases hkind with h | h | h | h <;> rw [h] <;> rfl

namespace Line

private theorem scanFrom_reclassified (K K' : Keywords) (line fuel column : Nat)
    (text : List Char) :
    scanFrom K' path line fuel column text =
      (scanFrom K path line fuel column text).map (List.map (Token.reclassified K')) := by
  induction fuel generalizing column text with
  | zero => rfl
  | succ fuel ih =>
    rw [scanFrom, scanFrom, Lead.ofText_reclassified K K']
    cases Lead.ofText K text with
    | finished => rfl
    | blank rest => exact ih (column + 1) rest
    | lexeme l rest =>
      simp only [Lead.reclassified, Lexeme.text_reclassified, ih (column + l.text.length) rest]
      cases scanFrom K path line fuel (column + l.text.length) rest <;> rfl
    | flaw cause offset => rfl

/-- A line is read the same under other reserved words, up to the classes of words. -/
theorem scan_reclassified (K K' : Keywords) (path : Option String) (line : Nat)
    (text : List Char) :
    scan K' path line text = (scan K path line text).map (List.map (Token.reclassified K')) :=
  scanFrom_reclassified K K' line text.length 1 text

/-- The tokens of a line leave the same brackets open under other reserved words. -/
theorem depthAfter_reclassified {K : Keywords} {line : Nat} {text : List Char} {tokens : List Token}
    (h : scan K path line text = .ok tokens) (K' : Keywords) (depth : Nat) :
    depthAfter depth (tokens.map (Token.reclassified K')) = depthAfter depth tokens := by
  have hkind : ∀ token ∈ tokens, ∀ depth,
      depthStep depth (token.reclassified K').kind = depthStep depth token.kind := by
    intro token htoken depth
    obtain ⟨-, _, _, hlead⟩ := lead_of_mem_scan h token htoken
    rcases (Lead.ends_of_ofText hlead).word_or_not K' with ⟨word, hword, hl, -⟩ | ⟨hword, -⟩
    · have htext : (Word.lexeme K word).text.toList = word := by simp
      rw [Token.reclassified, hl, Lexeme.reclassified, htext, if_pos hword, Word.depthStep_lexeme,
        Word.depthStep_lexeme]
    · rw [Token.reclassified, Lexeme.reclassified_of_not_word hword]
  clear h
  induction tokens generalizing depth with
  | nil => rfl
  | cons token tokens ih =>
    rw [List.forall_mem_cons] at hkind
    rw [List.map_cons, depthAfter, depthAfter, List.foldl_cons, List.foldl_cons, hkind.1 depth]
    exact ih _ hkind.2

end Line

namespace Layout

/-- Marks for a change of indentation have no spelling. -/
theorem text_of_entered {layout : Layout} {width : Nat} {marks : List Lexeme} {levels : List Nat}
    (h : layout.entered width = some (marks, levels)) : ∀ mark ∈ marks, mark.text = "" := by
  unfold entered at h
  split at h
  · rcases enter_cases h with ⟨-, rfl, -⟩ | ⟨closed, -, -, rfl⟩
    · simp [Lexeme.indent]
    · simp [Lexeme.dedent]
  · cases h
    simp

/-- What a line comes to under other reserved words. -/
theorem addLine_reclassified (K K' : Keywords) (path : Option String) (layout : Layout)
    (number : Nat) (line : List Char) :
    layout.addLine K' path number line =
      (layout.addLine K path number line).map (Prod.map (List.map (Token.reclassified K')) id) := by
  have hscan' := Line.scan_reclassified K K' path number line
  cases hscan : Line.scan K path number line with
  | error flaw =>
    rw [hscan] at hscan'
    rw [addLine_of_scan_error hscan, addLine_of_scan_error hscan']
    rfl
  | ok tokens =>
    rw [hscan] at hscan'
    by_cases hne : tokens = []
    · subst hne
      rw [addLine_of_scan_nil hscan, addLine_of_scan_nil hscan']
      rfl
    · rw [addLine_of_scan hscan hne, addLine_of_scan hscan' (by simpa using hne),
        Line.depthAfter_reclassified hscan]
      cases hentered : layout.entered (Line.indentWidth line) with
      | none => rfl
      | some entered =>
        obtain ⟨marks, levels⟩ := entered
        have hmarks : (marks.map (·.place number 1)).map (Token.reclassified K') =
            marks.map (·.place number 1) := by
          rw [List.map_map]
          refine List.map_congr_left fun mark hmark => ?_
          have hword : ¬Word.IsWord mark.text.toList := by
            rw [text_of_entered hentered mark hmark]
            decide
          rw [Function.comp_apply, Lexeme.reclassified_place,
            Lexeme.reclassified_of_not_word hword]
        have hnewline : (Lexeme.newline.place number (line.length + 1)).reclassified K' =
            Lexeme.newline.place number (line.length + 1) := by
          rw [Lexeme.reclassified_place, Lexeme.reclassified_of_not_word (by decide)]
        simp only [Except.map, Prod.map_apply, List.map_append, List.map_singleton, hmarks,
          hnewline, id]

private theorem close_reclassified (K : Keywords) (layout : Layout) (lineCount : Nat) :
    (layout.close lineCount).map (Token.reclassified K) = layout.close lineCount := by
  have hdedent : Lexeme.dedent.reclassified K = Lexeme.dedent :=
    Lexeme.reclassified_of_not_word (by decide) K
  have heof : Lexeme.eof.reclassified K = Lexeme.eof :=
    Lexeme.reclassified_of_not_word (by decide) K
  simp only [close, List.map_append, List.map_map, Function.comp_def, List.map_singleton,
    Lexeme.reclassified_place, hdedent, heof]

private theorem addLines_reclassified (K K' : Keywords) (path : Option String) (layout : Layout)
    (done : Nat) (lines : List (List Char)) :
    layout.addLines K' path done lines =
      (layout.addLines K path done lines).map (List.map (Token.reclassified K')) := by
  induction lines generalizing layout done with
  | nil =>
    rw [addLines, addLines, Except.map, close_reclassified]
  | cons line rest ih =>
    rw [addLines, addLines, addLine_reclassified K K' path]
    cases layout.addLine K path (done + 1) (Text.trimReturns line) with
    | error flaw => rfl
    | ok added =>
      obtain ⟨tokens, next⟩ := added
      simp only [Except.map, Prod.map_apply, id]
      rw [ih next (done + 1)]
      cases next.addLines K path (done + 1) rest with
      | error flaw => rfl
      | ok more => simp only [Except.map, List.map_append]

/-- **Other reserved words change the classes of words and nothing else.** -/
theorem tokenize_reclassified (K K' : Keywords) (source : String) (path : Option String) :
    tokenize K' source path = (tokenize K source path).map (List.map (Token.reclassified K')) :=
  addLines_reclassified K K' path {} 0 (Text.lines source.toList)

end Layout

namespace Word

private theorem lexeme_value (K K' : Keywords) (word : List Char) :
    (lexeme K word).value = (lexeme K' word).value := by
  simp only [lexeme]
  repeat' split
  all_goals rfl

private theorem kind_of_ordinary (K : Keywords) {word : String} (h : IsOrdinary word) :
    (lexeme K word.toList).kind = if word ∈ K then .keyword else nameKind word := by
  obtain ⟨-, hfn, htrue, hfalse⟩ := h
  simp only [lexeme, nameKind, String.ofList_toList, if_neg hfn, if_neg htrue, if_neg hfalse]
  repeat' split
  all_goals rfl

/-- The function word and the truth values need not be reserved. -/
theorem kind_of_not_ordinary (K K' : Keywords) {word : String} (hword : IsWord word.toList)
    (h : ¬IsOrdinary word) : (lexeme K word.toList).kind = (lexeme K' word.toList).kind := by
  simp only [IsOrdinary, hword, true_and, not_and_or, not_not] at h
  simp only [lexeme, String.ofList_toList]
  rcases h with rfl | rfl | rfl <;> rfl

end Word

/-- A token as it is classified under either of two sets of reserved words. -/
theorem Token.reclassified_reclassified (K K' : Keywords) (token : Token) :
    Token.Reclassified K K' (token.reclassified K) (token.reclassified K') := by
  have htext : ∀ K : Keywords, (token.reclassified K).text = token.text :=
    fun K => Lexeme.text_reclassified K token.toLexeme
  by_cases hword : Word.IsWord token.text.toList
  · have hlexeme : ∀ K : Keywords,
        token.toLexeme.reclassified K = Word.lexeme K token.text.toList :=
      fun K => if_pos hword
    have hkind : ∀ K : Keywords, (token.reclassified K).kind =
        (Word.lexeme K token.text.toList).kind := fun K => by rw [Token.reclassified, hlexeme]
    refine ⟨by rw [htext, htext], ?_, rfl, ?_, ?_, ?_⟩
    · rw [Token.reclassified, Token.reclassified, hlexeme, hlexeme]
      exact Word.lexeme_value K K' _
    · rw [htext, hkind, hkind]
      intro hsame
      by_cases hordinary : Word.IsOrdinary token.text
      · simp only [Word.kind_of_ordinary _ hordinary, hsame hordinary]
      · exact Word.kind_of_not_ordinary K K' hword hordinary
    · rw [htext, hkind, hkind]
      intro hordinary hin hout
      simp only [Word.kind_of_ordinary _ hordinary, if_pos hin, if_neg hout, and_self]
    · rw [htext, hkind, hkind]
      intro hordinary hout hin
      simp only [Word.kind_of_ordinary _ hordinary, if_pos hin, if_neg hout, and_self]
  · have hlexeme : ∀ K : Keywords, token.reclassified K = token := by
      intro K
      rw [Token.reclassified, Lexeme.reclassified_of_not_word hword]
    rw [hlexeme, hlexeme]
    exact ⟨rfl, rfl, rfl, fun _ => rfl, fun h => absurd h.1 hword, fun h => absurd h.1 hword⟩

namespace Layout

/-- Two readings of one source under different reserved words. -/
theorem reclassified_tokenize (K K' : Keywords) (source : String) (path : Option String) :
    Layout.Reclassified K K' (tokenize K source path) (tokenize K' source path) := by
  -- The reading under the first words is its own reclassification, so both sides have one form.
  have hfirst := tokenize_reclassified K K source path
  rw [tokenize_reclassified K K' source path]
  cases htokens : tokenize K source path with
  | error flaw => exact .error flaw
  | ok tokens =>
    rw [htokens, Except.map, Except.ok.injEq] at hfirst
    refine .ok ?_
    nth_rewrite 1 [hfirst]
    rw [List.forall₂_map_left_iff, List.forall₂_map_right_iff, List.forall₂_same]
    exact fun token _ => Token.reclassified_reclassified K K' token

end Layout

/-- Tokens none of which changes its class are the same. -/
theorem Token.Reclassified.eq {K K' : Keywords} {token token' : Token}
    (h : Token.Reclassified K K' token token')
    (hword : Word.IsWord token.text.toList → (token.text ∈ K ↔ token.text ∈ K')) :
    token = token' := by
  have hkind := h.same fun hordinary => hword hordinary.1
  obtain ⟨⟨kind, text, value⟩, place⟩ := token
  obtain ⟨⟨kind', text', value'⟩, place'⟩ := token'
  obtain ⟨rfl, rfl, rfl, -, -, -⟩ := h
  obtain rfl : kind = kind' := hkind
  rfl

/-- Readings in which no token changes its class are the same. -/
theorem Layout.Reclassified.eq {K K' : Keywords} {result result' : Except Flaw (List Token)}
    (h : Layout.Reclassified K K' result result')
    (hwords : ∀ tokens, result = .ok tokens → ∀ token ∈ tokens,
      Word.IsWord token.text.toList → (token.text ∈ K ↔ token.text ∈ K')) :
    result = result' := by
  cases h with
  | error flaw => rfl
  | @ok tokens tokens' hall =>
    replace hwords := hwords tokens rfl
    congr 1
    induction hall with
    | nil => rfl
    | cons htoken _ ih =>
      rw [List.forall_mem_cons] at hwords
      rw [htoken.eq hwords.1, ih hwords.2]

namespace Program

/-- **Reserved words only classify.** Under two sets of reserved words a source has the same flaw,
or it has tokens with the same spellings, values and places one by one, whose kinds are the same
except for ordinary words that are reserved in one of the sets only: these are keywords there and
names here, named for their first character. If no word of the source is in one of the sets only, it
is read in the same way, as the same program or with the same failure, and so is its tree. -/
theorem reserved_words_classify (K K' : Keywords) (source : String) (path : Option String) :
    Layout.Reclassified K K' (tokenize K source path) (tokenize K' source path) ∧
      ((∀ tokens, tokenize K source path = .ok tokens → ∀ token ∈ tokens,
          Word.IsWord token.text.toList → (token.text ∈ K ↔ token.text ∈ K')) →
        Program.parse K source path = Program.parse K' source path ∧
          Source.tree K source path = Source.tree K' source path) := by
  have hreclassified := Layout.reclassified_tokenize K K' source path
  refine ⟨hreclassified, fun hwords => ?_⟩
  have htokens : tokenize K source path = tokenize K' source path := hreclassified.eq hwords
  have hparse : Program.parse K source path = Program.parse K' source path := by
    rw [Program.parse, Program.parse, htokens]
  exact ⟨hparse, by rw [Source.tree, Source.tree, hparse]⟩

/-- A source with two reserved words, a truth value that need not be reserved, and a name. -/
theorem tokenize_conditional : tokenize Keywords.standard "x : if True then y" none =
    .ok [Lexeme.place ⟨.ident, "x", .text "x"⟩ 1 1, (Symbol.lexeme [':'] .colon).place 1 3,
      Lexeme.place ⟨.keyword, "if", .text "if"⟩ 1 5,
      Lexeme.place ⟨.keyword, "True", .bool true⟩ 1 8,
      Lexeme.place ⟨.keyword, "then", .text "then"⟩ 1 13,
      Lexeme.place ⟨.ident, "y", .text "y"⟩ 1 18, Lexeme.newline.place 1 19,
      Lexeme.eof.place 2 1] := by
  rfl

/-- Another set with the reserved words of a conditional reads it alike. -/
theorem reserved_words_classify_conditional :
    Layout.Reclassified Keywords.standard ["if", "then", "True", "while"]
        (tokenize Keywords.standard "x : if True then y" none)
        (tokenize ["if", "then", "True", "while"] "x : if True then y" none) ∧
      Source.tree Keywords.standard "x : if True then y" none =
        Source.tree ["if", "then", "True", "while"] "x : if True then y" none := by
  obtain ⟨htokens, hread⟩ := reserved_words_classify Keywords.standard
    ["if", "then", "True", "while"] "x : if True then y" none
  refine ⟨htokens, (hread fun tokens hscan => ?_).2⟩
  rw [tokenize_conditional, Except.ok.injEq] at hscan
  subst hscan
  simp [Lexeme.place, Symbol.lexeme, Lexeme.newline, Lexeme.eof, Keywords.standard]

end Program

end Slick
