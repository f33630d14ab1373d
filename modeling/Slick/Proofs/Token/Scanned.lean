import Mathlib.Data.List.TakeWhile
import Slick.Proofs.Layout.Run

/-!
# The lexemes of a source

Every token of a source is a mark of the layout, a numeral, a text literal, a word or a symbol. The
shapes are told apart by their spellings: a word is not a symbol, and for given reserved words its
spelling determines its kind and its value. Main statements: `tokenize_known` and
`Scanned.eq_of_text`.
-/

namespace Slick

variable {path : Option String}

/-- A start character and characters that continue a word. -/
def Word.IsWord (word : List Char) : Prop :=
  (∃ c ∈ word.head?, isStart c = true) ∧ ∀ c ∈ word, isPart c = true

instance (word : List Char) : Decidable (Word.IsWord word) :=
  decidable_of_iff ((word.head?.any Word.isStart && word.all Word.isPart) = true) <| by
    rw [Bool.and_eq_true, Option.any_eq_true, List.all_eq_true]
    rfl

/-- The shapes of the lexemes that a line is made of. -/
inductive Lexeme.Scanned (keywords : Keywords) : Lexeme → Prop where
  | numeral {whole : List Char} :
    whole ≠ [] → (∀ c ∈ whole, c.isDigit = true) →
    Scanned keywords ⟨.number, String.ofList whole, .decimal (.ofNumeral whole [])⟩
  | fraction {whole part : List Char} :
    whole ≠ [] → (∀ c ∈ whole, c.isDigit = true) → part ≠ [] → (∀ c ∈ part, c.isDigit = true) →
    Scanned keywords
      ⟨.number, String.ofList (whole ++ '.' :: part), .decimal (.ofNumeral whole part)⟩
  | text {value written : List Char} :
    Scanned keywords
      ⟨.text, String.ofList ('\'' :: (written ++ ['\''])), .text (String.ofList value)⟩
  | word {word : List Char} : Word.IsWord word → Scanned keywords (Word.lexeme keywords word)
  | symbol {spelling : List Char} {kind : Kind} :
    (spelling, kind) ∈ Symbol.table → Scanned keywords (Symbol.lexeme spelling kind)

namespace Lead

private theorem scanned_number {keywords : Keywords} {c : Char} {text rest : List Char}
    {l : Lexeme} (hc : c.isDigit = true) (h : number (c :: text) = lexeme l rest) :
    l.Scanned keywords := by
  have hwhole : (c :: text).takeWhile Char.isDigit ≠ [] := by simp [hc]
  simp only [number] at h
  split at h
  · cases h
    exact .numeral hwhole (fun _ => List.mem_takeWhile_imp)
  · next part more hfraction =>
    cases h
    unfold fraction at hfraction
    split at hfraction
    · split at hfraction
      · next d behind _ hd =>
        cases hfraction
        exact .fraction hwhole (fun _ => List.mem_takeWhile_imp) (by simp [hd])
          (fun _ => List.mem_takeWhile_imp)
      · cases hfraction
    · cases hfraction

/-- What a text starts with has one of the shapes. -/
theorem scanned_of_ofText {keywords : Keywords} {text rest : List Char} {l : Lexeme}
    (h : ofText keywords text = lexeme l rest) : l.Scanned keywords := by
  cases text with
  | nil => cases h
  | cons c more =>
    simp only [ofText] at h
    split at h
    · cases h
    split at h
    · cases h
    split at h
    · next hdigit => exact scanned_number hdigit h
    split at h
    · simp only [textLiteral] at h
      split at h <;> cases h
      exact .text
    split at h
    · next hstart =>
      cases h
      refine .word ⟨⟨c, ?_, hstart⟩, (fun _ => List.mem_takeWhile_imp)⟩
      simp [Word.isPart_of_isStart hstart]
    · simp only [symbol] at h
      split at h
      · next spelling kind hfind =>
        cases h
        exact .symbol (List.mem_of_find?_eq_some hfind)
      · cases h

end Lead

/-- The tokens of a line have the shapes of lexemes. -/
theorem Line.scanned_of_mem {keywords : Keywords} {number : Nat} {text : List Char}
    {tokens : List Token} (h : scan keywords path number text = .ok tokens) :
    ∀ token ∈ tokens, token.toLexeme.Scanned keywords := by
  intro token htoken
  obtain ⟨-, _, _, hlead⟩ := lead_of_mem_scan h token htoken
  exact Lead.scanned_of_ofText hlead

/-- The lexemes of a source: marks of the layout and what lines are made of. -/
def Lexeme.Known (keywords : Keywords) (lexeme : Lexeme) : Prop :=
  lexeme.kind.isLayout = true ∨ lexeme.Scanned keywords

namespace Layout

private theorem known_of_enter {keywords : Keywords} {levels levels' : List Nat} {width : Nat}
    {marks : List Lexeme} (h : enter levels width = some (marks, levels')) :
    ∀ mark ∈ marks, mark.Known keywords := by
  rcases enter_cases h with ⟨-, rfl, -⟩ | ⟨closed, -, -, rfl⟩
  · simp [Lexeme.Known, Lexeme.indent, Kind.isLayout]
  · simp [Lexeme.Known, Lexeme.dedent, Kind.isLayout]

/-- The tokens of a run are lexemes that the scanner knows. -/
theorem Reaches.known {keywords : Keywords} {lines : List (List Char)} {before : List Token}
    {layout : Layout} (h : Reaches keywords path lines before layout) :
    ∀ token ∈ before, token.toLexeme.Known keywords := by
  induction h with
  | start => simp
  | @step lines line before tokens layout next _ hadd ih =>
    rw [List.forall_mem_append]
    refine ⟨ih, ?_⟩
    rcases addLine_cases hadd with ⟨-, rfl, -⟩ | ⟨marks, scanned, hadds, rfl⟩
    · simp
    have hmarks : ∀ mark ∈ marks, mark.Known keywords := by
      by_cases hdepth : layout.depth = 0
      · exact known_of_enter (hadds.outside hdepth)
      · simp [(hadds.inside hdepth).1]
    rw [List.forall_mem_append, List.forall_mem_append, List.forall_mem_singleton]
    refine ⟨?_, fun token htoken => .inr (Line.scanned_of_mem hadds.scan token htoken), .inl rfl⟩
    intro token htoken
    obtain ⟨mark, hmark, rfl⟩ := List.mem_map.mp htoken
    exact hmarks mark hmark

/-- Every token of a source is a mark of the layout or has one of the shapes. -/
theorem tokenize_known {keywords : Keywords} {source : String} {tokens : List Token}
    (h : tokenize keywords source path = .ok tokens) :
    ∀ token ∈ tokens, token.toLexeme.Known keywords := by
  obtain ⟨body, final, hreaches, rfl⟩ := tokenize_reaches h
  rw [List.forall_mem_append]
  refine ⟨hreaches.known, fun token htoken => .inl ?_⟩
  rw [close, List.mem_append, List.mem_map, List.mem_singleton] at htoken
  rcases htoken with ⟨_, -, rfl⟩ | rfl <;> rfl

end Layout

namespace Lexeme

/-- A symbol starts with a character with which no word starts. -/
theorem not_isStart_of_symbol :
    ∀ entry ∈ Symbol.table, ∀ c ∈ entry.1.head?, Word.isStart c = false := by
  have hall : (Symbol.table.all fun entry => entry.1.head?.all fun c => !Word.isStart c) =
    true := by
    decide +kernel
  intro entry hentry c hc
  have hhead := List.all_eq_true.mp hall entry hentry
  simpa using (Option.all_eq_true ..).mp hhead c hc

/-- The spelling of a symbol determines its kind. -/
theorem symbol_unique : ∀ entry ∈ Symbol.table, ∀ entry' ∈ Symbol.table, entry.1 = entry'.1 →
    entry = entry' := by
  decide +kernel

/-- Symbols are no names. -/
theorem symbol_not_name :
    ∀ entry ∈ Symbol.table, entry.2 ≠ .ident ∧ entry.2 ≠ .uident := by
  decide +kernel

/-- Names are the lexemes of words. -/
theorem Known.exists_word {keywords : Keywords} {l : Lexeme} (h : l.Known keywords)
    (hkind : l.kind = .ident ∨ l.kind = .uident) :
    ∃ word, Word.IsWord word ∧ l = Word.lexeme keywords word := by
  rcases h with hlayout | hscanned
  · rcases hkind with hkind | hkind <;> simp [hkind, Kind.isLayout] at hlayout
  · cases hscanned with
    | numeral | fraction | text => simp at hkind
    | word hword => exact ⟨_, hword, rfl⟩
    | symbol hsymbol =>
      have hnone := symbol_not_name _ hsymbol
      simp only [Symbol.lexeme] at hkind
      exact absurd hkind (not_or.mpr hnone)

/-- A name that the scanner knows is a word. -/
theorem Known.isWord {keywords : Keywords} {l : Lexeme} (h : l.Known keywords)
    (hkind : l.kind = .ident ∨ l.kind = .uident) : Word.IsWord l.text.toList := by
  obtain ⟨word, hword, rfl⟩ := h.exists_word hkind
  simpa using hword

/-- Symbols are no literals. -/
theorem symbol_not_literal :
    ∀ entry ∈ Symbol.table, entry.2 ≠ .number ∧ entry.2 ≠ .text := by
  decide +kernel

/-- A word is no literal. -/
theorem word_not_literal (keywords : Keywords) (word : List Char) :
    (Word.lexeme keywords word).kind ≠ .number ∧ (Word.lexeme keywords word).kind ≠ .text := by
  simp only [Word.lexeme]
  repeat' split
  all_goals simp

/-- A numeral is made of the digits in front of its point and those behind it, and has their
value. -/
theorem Known.numeral {keywords : Keywords} {l : Lexeme} (h : l.Known keywords)
    (hkind : l.kind = .number) :
    ∃ whole fraction, whole ≠ [] ∧ (∀ c ∈ whole ++ fraction, c.isDigit = true) ∧
      l.text.toList.filter Char.isDigit = whole ++ fraction ∧
      l.value = .decimal (.ofNumeral whole fraction) := by
  rcases h with hlayout | hscanned
  · simp [hkind, Kind.isLayout] at hlayout
  · cases hscanned with
    | @numeral whole hne hdigits =>
      refine ⟨whole, [], hne, by simpa using hdigits, ?_, rfl⟩
      simpa using hdigits
    | @fraction whole part hne hdigits _ hpart =>
      refine ⟨whole, part, hne, ?_, ?_, rfl⟩
      · intro c hc
        exact (List.mem_append.mp hc).elim (hdigits c) (hpart c)
      · have hpoint : Char.isDigit '.' = false := rfl
        rw [String.toList_ofList, List.filter_append, List.filter_cons_of_neg (by simp [hpoint]),
          List.filter_eq_self.mpr hdigits, List.filter_eq_self.mpr hpart]
    | text => cases hkind
    | word => exact absurd hkind (word_not_literal _ _).1
    | symbol hsymbol => exact absurd hkind (symbol_not_literal _ hsymbol).1

/-- A text literal has a text as its value. -/
theorem Known.text_value {keywords : Keywords} {l : Lexeme} (h : l.Known keywords)
    (hkind : l.kind = .text) : ∃ s, l.value = .text s := by
  rcases h with hlayout | hscanned
  · simp [hkind, Kind.isLayout] at hlayout
  · cases hscanned with
    | numeral | fraction => cases hkind
    | text => exact ⟨_, rfl⟩
    | word => exact absurd hkind (word_not_literal _ _).2
    | symbol hsymbol => exact absurd hkind (symbol_not_literal _ hsymbol).2

/-- A word or a symbol is determined by its spelling. -/
theorem Scanned.eq_of_text {keywords : Keywords} {l l' : Lexeme} (h : l.Scanned keywords)
    (h' : l'.Scanned keywords) (hkind : l.kind ≠ .number ∧ l.kind ≠ .text)
    (hkind' : l'.kind ≠ .number ∧ l'.kind ≠ .text) (htext : l.text = l'.text) : l = l' := by
  have hmixed : ∀ {word spelling : List Char} {kind : Kind}, Word.IsWord word →
      (spelling, kind) ∈ Symbol.table → word ≠ spelling := by
    rintro word spelling kind ⟨⟨c, hc, hstart⟩, -⟩ hsymbol rfl
    rw [not_isStart_of_symbol _ hsymbol c hc] at hstart
    cases hstart
  cases h with
  | numeral | fraction | text => simp at hkind
  | @word word hword =>
    cases h' with
    | numeral | fraction | text => simp at hkind'
    | @word word' hword' =>
      rw [Word.lexeme_text, Word.lexeme_text, String.ofList_inj] at htext
      rw [htext]
    | symbol hsymbol =>
      rw [Word.lexeme_text, Symbol.lexeme, String.ofList_inj] at htext
      exact absurd htext (hmixed hword hsymbol)
  | @symbol spelling kind hsymbol =>
    cases h' with
    | numeral | fraction | text => simp at hkind'
    | word hword =>
      rw [Word.lexeme_text, Symbol.lexeme, String.ofList_inj] at htext
      exact absurd htext.symm (hmixed hword hsymbol)
    | @symbol spelling' kind' hsymbol' =>
      rw [Symbol.lexeme, Symbol.lexeme, String.ofList_inj] at htext
      cases symbol_unique _ hsymbol _ hsymbol' htext
      rfl

/-- Lexemes that are no literals and no marks of the layout are determined by their spelling. -/
theorem Known.eq_of_text {keywords : Keywords} {l l' : Lexeme} (h : l.Known keywords)
    (h' : l'.Known keywords) (hkind : l.kind.isLayout = false ∧ l.kind ≠ .number ∧ l.kind ≠ .text)
    (hkind' : l'.kind.isLayout = false ∧ l'.kind ≠ .number ∧ l'.kind ≠ .text)
    (htext : l.text = l'.text) : l = l' := by
  have hscanned := h.resolve_left (by simp [hkind.1])
  have hscanned' := h'.resolve_left (by simp [hkind'.1])
  exact hscanned.eq_of_text hscanned' hkind.2 hkind'.2 htext

end Lexeme

end Slick
