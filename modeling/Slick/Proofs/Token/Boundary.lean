import Mathlib.Tactic.FinCases
import Slick.Proofs.Text.Literal
import Slick.Proofs.Text.Runs
import Slick.Proofs.Token.Scanned

/-!
# Where lexemes end

A text starts with a lexeme exactly if it starts with the spelling of the lexeme and what follows
does not continue it: no further digit or fraction behind a numeral, no further letter behind a
word, no sign that would make a longer symbol or a comment. Where no lexeme is found, the text
starts with a character that starts nothing or with a text literal that cannot be read. Main
statements: `Lead.ofText_eq_lexeme_iff` and `Lead.flawed_of_ofText`.
-/

namespace Slick

/-- The lexeme has one of the shapes, and what follows does not continue it. -/
inductive Lexeme.Ends (keywords : Keywords) : Lexeme → List Char → Prop where
  | numeral {whole rest : List Char} :
    whole ≠ [] → (∀ c ∈ whole, c.isDigit = true) → (∀ c ∈ rest.head?, c.isDigit = false) →
    (∀ d more, rest = '.' :: d :: more → d.isDigit = false) →
    Ends keywords ⟨.number, String.ofList whole, .decimal (.ofNumeral whole [])⟩ rest
  | fraction {whole part rest : List Char} :
    whole ≠ [] → (∀ c ∈ whole, c.isDigit = true) → part ≠ [] → (∀ c ∈ part, c.isDigit = true) →
    (∀ c ∈ rest.head?, c.isDigit = false) →
    Ends keywords
      ⟨.number, String.ofList (whole ++ '.' :: part), .decimal (.ofNumeral whole part)⟩ rest
  | text {written value rest : List Char} :
    TextLiteral.Denotes written value →
    Ends keywords
      ⟨.text, String.ofList ('\'' :: (written ++ ['\''])), .text (String.ofList value)⟩ rest
  | word {word rest : List Char} :
    Word.IsWord word → (∀ c ∈ rest.head?, Word.isPart c = false) →
    Ends keywords (Word.lexeme keywords word) rest
  | symbol {spelling rest : List Char} {kind : Kind} :
    (spelling, kind) ∈ Symbol.table →
    (kind = .minus → ∀ c ∈ rest.head?, c ≠ '-' ∧ c ≠ '>') →
    (kind = .lt ∨ kind = .gt → ∀ c ∈ rest.head?, c ≠ '=') →
    Ends keywords (Symbol.lexeme spelling kind) rest

/-- A text that is cut off further on ends a lexeme at the same place. -/
theorem Lexeme.Ends.of_prefix {keywords : Keywords} {l : Lexeme} {rest front : List Char}
    (h : l.Ends keywords rest) (hfront : front <+: rest) : l.Ends keywords front := by
  have hhead : ∀ {P : Char → Prop}, (∀ c ∈ rest.head?, P c) → ∀ c ∈ front.head?, P c := by
    intro P hrest c hc
    obtain ⟨more, rfl⟩ := hfront
    exact hrest c (by rw [List.head?_append, Option.mem_def.mp hc]; rfl)
  cases h with
  | numeral hne hwhole hdigit hpoint =>
    refine .numeral hne hwhole (hhead hdigit) fun d more hmore => ?_
    obtain ⟨behind, rfl⟩ := hfront
    exact hpoint d (more ++ behind) (by rw [hmore]; rfl)
  | fraction hne hwhole hpart hdigits hdigit =>
    exact .fraction hne hwhole hpart hdigits (hhead hdigit)
  | text hdenotes => exact .text hdenotes
  | word hword hpart => exact .word hword (hhead hpart)
  | symbol hsymbol hminus hless =>
    exact .symbol hsymbol (fun hkind => hhead (hminus hkind)) fun hkind => hhead (hless hkind)

/-- Behind a run of characters that pass a test stands one that fails it. -/
theorem Text.head_dropWhile (test : Char → Bool) (text : List Char) :
    ∀ c ∈ (text.dropWhile test).head?, test c = false := by
  intro c hc
  have := List.head?_dropWhile_not test text
  rw [Option.mem_def.mp hc] at this
  simpa using this

/-- A word starts beyond the digits and the signs of ASCII. -/
theorem Word.le_toNat_of_isStart {c : Char} (h : isStart c = true) : 0x41 ≤ c.toNat := by
  simp only [isStart, Bool.and_eq_true, Bool.or_eq_true, beq_iff_eq] at h
  rcases h.1 with hletter | rfl
  · by_contra hsmall
    rw [Text.isLetter, Text.letterSpans, Text.Spans.contains, if_pos (by omega)] at hletter
    cases hletter
  · decide

namespace Symbol

/-- A symbol is found in front of whatever does not make it a longer one. -/
theorem find?_append {spelling rest : List Char} {kind : Kind}
    (hmem : (spelling, kind) ∈ table) (hminus : kind = .minus → ∀ c ∈ rest.head?, c ≠ '>')
    (hless : kind = .lt ∨ kind = .gt → ∀ c ∈ rest.head?, c ≠ '=') :
    find? (spelling ++ rest) = some (spelling, kind) := by
  have hlonger : ∀ {sign : Char}, (∀ c ∈ rest.head?, c ≠ sign) →
      [sign].isPrefixOf rest = false := by
    intro sign hsign
    cases rest with
    | nil => rfl
    | cons c more => simpa [List.isPrefixOf] using Ne.symm (hsign c rfl)
  fin_cases hmem
  -- Only three symbols are the start of a longer one.
  any_goals rfl
  · simp [find?, table, List.find?, List.isPrefixOf, hlonger (hless (.inl rfl))]
  · simp [find?, table, List.find?, List.isPrefixOf, hlonger (hless (.inr rfl))]
  · simp [find?, table, List.find?, List.isPrefixOf, hlonger (hminus rfl)]

/-- The symbols that are the start of a longer one have one spelling each. -/
theorem spelling_eq {spelling : List Char} {kind : Kind} (h : (spelling, kind) ∈ table) :
    (kind = .minus → spelling = ['-']) ∧ (kind = .lt → spelling = ['<']) ∧
      (kind = .gt → spelling = ['>']) := by
  have hall : ∀ entry ∈ table, (entry.2 = .minus → entry.1 = ['-']) ∧
      (entry.2 = .lt → entry.1 = ['<']) ∧ (entry.2 = .gt → entry.1 = ['>']) := by decide
  exact hall _ h

/-- A symbol that is found is not the start of a longer one. -/
theorem not_longer_of_find? {spelling rest : List Char} {kind : Kind}
    (h : find? (spelling ++ rest) = some (spelling, kind)) :
    (kind = .minus → ∀ c ∈ rest.head?, c ≠ '>') ∧
      (kind = .lt ∨ kind = .gt → ∀ c ∈ rest.head?, c ≠ '=') := by
  obtain ⟨hminus, hlt, hgt⟩ := spelling_eq (List.mem_of_find?_eq_some h)
  cases rest with
  | nil => simp
  | cons d more =>
    refine ⟨?_, ?_⟩
    · rintro rfl c hc rfl
      obtain rfl : d = '>' := by simpa using hc
      cases hminus rfl
      cases h
    · rintro (rfl | rfl) c hc rfl
      · obtain rfl : d = '=' := by simpa using hc
        cases hlt rfl
        cases h
      · obtain rfl : d = '=' := by simpa using hc
        cases hgt rfl
        cases h

/-- With which characters symbols start: with no blank, no digit and no quote. -/
theorem head_plain : ∀ entry ∈ table, ∀ c ∈ entry.1.head?,
    ¬(c = ' ' ∨ c = '\t') ∧ c.isDigit = false ∧ c ≠ '\'' := by
  have hall : (table.all fun entry => entry.1.head?.all fun c =>
      !(c == ' ' || c == '\t') && !c.isDigit && c != '\'') = true := by
    decide
  intro entry hentry c hc
  have hhead := (Option.all_eq_true ..).mp (List.all_eq_true.mp hall entry hentry) c hc
  simpa [and_assoc] using hhead

/-- A symbol does not start a comment unless it is a minus sign in front of another one. -/
theorem not_comment {c : Char} {text spelling rest : List Char} {kind : Kind}
    (hmem : (spelling, kind) ∈ table) (hminus : kind = .minus → ∀ c ∈ rest.head?, c ≠ '-')
    (h : c :: text = spelling ++ rest) : ¬(c = '-' ∧ text.head? = some '-') := by
  rintro ⟨rfl, htext⟩
  fin_cases hmem <;> cases h
  · cases htext
  · exact hminus rfl '-' htext rfl

end Symbol

namespace Lead

variable {keywords : Keywords} {text rest : List Char} {l : Lexeme}

/-- There is no fraction exactly if no digit stands behind a point. -/
theorem fraction_eq_none_iff :
    fraction text = none ↔ ∀ d more, text = '.' :: d :: more → d.isDigit = false := by
  constructor
  · rintro h d more rfl
    simpa [fraction] using h
  · intro h
    unfold fraction
    split
    · next d more => simp [h d more rfl]
    · rfl

private theorem ends_of_number {c : Char} (hc : c.isDigit = true)
    (h : number (c :: text) = lexeme l rest) : l.Ends keywords rest := by
  have hwhole : (c :: text).takeWhile Char.isDigit ≠ [] := by simp [hc]
  have hbehind := Text.head_dropWhile Char.isDigit (c :: text)
  simp only [number] at h
  split at h
  · next hfraction =>
    cases h
    exact .numeral hwhole (fun _ => List.mem_takeWhile_imp) hbehind
      (fraction_eq_none_iff.mp hfraction)
  · next part more hfraction =>
    cases h
    unfold fraction at hfraction
    split at hfraction
    · split at hfraction
      · next d behind _ hd =>
        cases hfraction
        exact .fraction hwhole (fun _ => List.mem_takeWhile_imp) (by simp [hd])
          (fun _ => List.mem_takeWhile_imp) (Text.head_dropWhile _ _)
      · cases hfraction
    · cases hfraction

private theorem ends_of_textLiteral (h : textLiteral text = lexeme l rest) :
    l.Ends keywords rest := by
  unfold textLiteral at h
  obtain ⟨written, value, hdenotes, hbody⟩ := TextLiteral.body_cases text
  rcases hbody with ⟨-, hbody⟩ | ⟨behind, -, hbody⟩ | ⟨behind, -, -, hbody⟩ <;> rw [hbody] at h
  · cases h
  · cases h
    exact .text hdenotes
  · cases h

private theorem ends_of_symbol {c : Char} (hcomment : ¬(c = '-' ∧ text.head? = some '-'))
    (h : symbol c (c :: text) = lexeme l rest) : l.Ends keywords rest := by
  unfold symbol at h
  split at h
  · next spelling kind hfind =>
    cases h
    have hmem := List.mem_of_find?_eq_some hfind
    have hprefix : spelling <+: c :: text := by
      simpa [List.isPrefixOf_iff_prefix] using List.find?_some hfind
    obtain ⟨rest, hrest⟩ := hprefix
    rw [← hrest, List.drop_left]
    rw [← hrest] at hfind
    obtain ⟨hminus, hless⟩ := Symbol.not_longer_of_find? hfind
    refine .symbol hmem (fun hkind d hd => ⟨?_, hminus hkind d hd⟩) hless
    rintro rfl
    rw [(Symbol.spelling_eq hmem).1 hkind, List.singleton_append] at hrest
    cases hrest
    exact hcomment ⟨rfl, hd⟩
  · cases h

/-- What a text starts with ends where it does. -/
theorem ends_of_ofText (h : ofText keywords text = lexeme l rest) : l.Ends keywords rest := by
  cases text with
  | nil => cases h
  | cons c more =>
    simp only [ofText] at h
    split at h
    · cases h
    split at h
    · cases h
    next hcomment =>
    split at h
    · next hdigit => exact ends_of_number hdigit h
    split at h
    · exact ends_of_textLiteral h
    split at h
    · next hstart =>
      cases h
      refine .word ⟨⟨c, ?_, hstart⟩, fun _ => List.mem_takeWhile_imp⟩ (Text.head_dropWhile _ _)
      simp [Word.isPart_of_isStart hstart]
    · exact ends_of_symbol hcomment h

private theorem ofText_digit {c : Char} (h : c.isDigit = true) (more : List Char) :
    ofText keywords (c :: more) = number (c :: more) := by
  have hblank : ¬(c = ' ' ∨ c = '\t') := by
    rintro (rfl | rfl) <;> cases h
  have hminus : ¬(c = '-' ∧ more.head? = some '-') := by
    rintro ⟨rfl, -⟩
    cases h
  rw [ofText, if_neg hblank, if_neg hminus, if_pos h]

private theorem number_append {whole : List Char} (hne : whole ≠ [])
    (hwhole : ∀ c ∈ whole, c.isDigit = true) (hrest : ∀ c ∈ rest.head?, c.isDigit = false) :
    ofText keywords (whole ++ rest) =
      match fraction rest with
      | none => lexeme ⟨.number, String.ofList whole, .decimal (.ofNumeral whole [])⟩ rest
      | some (part, behind) =>
        lexeme ⟨.number, String.ofList (whole ++ '.' :: part), .decimal (.ofNumeral whole part)⟩
          behind := by
  obtain ⟨c, more, rfl⟩ := List.exists_cons_of_ne_nil hne
  rewrite [List.cons_append, ofText_digit (hwhole c (by simp)), ← List.cons_append, number,
    Text.takeWhile_run hwhole hrest, Text.dropWhile_run hwhole hrest]
  rfl

/-- In front of what does not continue it a lexeme is read. -/
theorem ofText_of_ends (h : l.Ends keywords rest) :
    ofText keywords (l.text.toList ++ rest) = lexeme l rest := by
  cases h with
  | numeral hne hwhole hdigit hpoint =>
    simp only [String.toList_ofList]
    rw [number_append hne hwhole hdigit, fraction_eq_none_iff.mpr hpoint]
  | @fraction whole part _ hne hwhole hpart hdigits hdigit =>
    obtain ⟨d, more, rfl⟩ := List.exists_cons_of_ne_nil hpart
    have hfraction : fraction ('.' :: (d :: more ++ rest)) = some (d :: more, rest) := by
      rw [List.cons_append, fraction, if_pos (hdigits d (by simp)), ← List.cons_append,
        Text.takeWhile_run hdigits hdigit, Text.dropWhile_run hdigits hdigit]
    simp only [String.toList_ofList, List.append_assoc, List.cons_append]
    rw [number_append hne hwhole (by simp), ← List.cons_append, hfraction]
  | @text written value _ hdenotes =>
    have hbody : TextLiteral.body (written ++ '\'' :: rest) = .closed value written rest := by
      rw [hdenotes.body_append, TextLiteral.body_quote]
      simp
    simp only [String.toList_ofList, List.cons_append, List.append_assoc, List.nil_append]
    simp [ofText, textLiteral, hbody]
  | @word word _ hword hpart =>
    obtain ⟨⟨c, hc, hstart⟩, hparts⟩ := hword
    obtain ⟨more, rfl⟩ : ∃ more, word = c :: more := ⟨_, List.eq_cons_of_mem_head? hc⟩
    have hlarge := Word.le_toNat_of_isStart hstart
    have hdigit : c.isDigit = false := by
      rw [Bool.eq_false_iff]
      intro hdigit
      have := (Char.isDigit_iff_toNat.mp hdigit).2
      have hnine : '9'.toNat < 0x41 := by decide
      omega
    have hne : ∀ d : Char, d.toNat < 0x41 → c ≠ d := by
      rintro d hd rfl
      omega
    have hblank : ¬(c = ' ' ∨ c = '\t') := by
      simp [hne ' ' (by decide), hne '\t' (by decide)]
    have hminus : ¬(c = '-' ∧ (more ++ rest).head? = some '-') := by
      simp [hne '-' (by decide)]
    rw [Word.lexeme_text, String.toList_ofList, List.cons_append, ofText, if_neg hblank,
      if_neg hminus, if_neg (by simp [hdigit]), if_neg (hne '\'' (by decide)), if_pos hstart, word,
      ← List.cons_append, Text.takeWhile_run hparts hpart, Text.dropWhile_run hparts hpart]
  | @symbol spelling _ kind hmem hminus hless =>
    have hfind := Symbol.find?_append hmem (fun hkind c hc => (hminus hkind c hc).2) hless
    obtain ⟨c, more, rfl⟩ := List.exists_cons_of_ne_nil (Symbol.spelling_ne_nil _ hmem)
    obtain ⟨hblank, hdigit, hquote⟩ := Symbol.head_plain _ hmem c rfl
    have hstart := Lexeme.not_isStart_of_symbol _ hmem c rfl
    have hcomment : ¬(c = '-' ∧ (more ++ rest).head? = some '-') :=
      Symbol.not_comment hmem (fun hkind c hc => (hminus hkind c hc).1) rfl
    rw [Symbol.lexeme, String.toList_ofList, List.cons_append, ofText, if_neg hblank,
      if_neg hcomment, if_neg (by simp [hdigit]), if_neg hquote, if_neg (by simp [hstart]), symbol,
      ← List.cons_append, hfind]
    simp only [Symbol.lexeme, List.drop_left]

/-- **A text starts with a lexeme** exactly if it starts with its spelling and what follows does not
continue it. -/
theorem ofText_eq_lexeme_iff :
    ofText keywords text = lexeme l rest ↔ text = l.text.toList ++ rest ∧ l.Ends keywords rest := by
  constructor
  · intro h
    exact ⟨(split_of_ofText_eq_lexeme h).1, ends_of_ofText h⟩
  · rintro ⟨rfl, hends⟩
    exact ofText_of_ends hends

/-- Nothing more is read at the end of a line and in front of a comment. -/
theorem ofText_eq_finished_iff :
    ofText keywords text = finished ↔ text = [] ∨ ['-', '-'] <+: text := by
  cases text with
  | nil => simp [ofText]
  | cons c more =>
    have hcomment : ['-', '-'] <+: c :: more ↔ c = '-' ∧ more.head? = some '-' := by
      rw [List.cons_prefix_cons, eq_comm]
      cases more with
      | nil => simp
      | cons d more => simp [eq_comm]
    simp only [hcomment, ofText, reduceCtorEq, false_or]
    constructor
    · intro h
      split at h
      · cases h
      split at h
      · assumption
      · exfalso
        revert h
        simp only [number, textLiteral, word, symbol]
        repeat' split
        all_goals simp
    · rintro ⟨rfl, hmore⟩
      simp [hmore]

/-- Why a text cannot be read from its start, with the number of characters in front of the place
that is reported. -/
inductive Flawed (keywords : Keywords) : List Char → Nat → Cause → Prop where
  /-- The first character starts no blank, no comment and no lexeme. -/
  | unexpected {c : Char} {rest : List Char} :
    c ≠ ' ' → c ≠ '\t' → ¬['-', '-'] <+: c :: rest →
    (∀ l behind, Lexeme.Scanned keywords l → c :: rest ≠ l.text.toList ++ behind) →
    Flawed keywords (c :: rest) 0 (.unexpectedCharacter c)
  /-- A text literal runs to the end of the line. The place is its opening quote. -/
  | unterminated {written value : List Char} :
    TextLiteral.Denotes written value → Flawed keywords ('\'' :: written) 0 .unterminatedText
  /-- A text literal holds a backslash without a known escape. The place is that backslash. -/
  | badEscape {written value behind : List Char} :
    TextLiteral.Denotes written value →
    (∀ letter ∈ behind.head?, TextLiteral.unescape? letter = none) →
    Flawed keywords ('\'' :: (written ++ '\\' :: behind)) (written.length + 1) .invalidEscape

private theorem flawed_of_textLiteral {cause : Cause} {offset : Nat}
    (h : textLiteral text = flaw cause offset) : Flawed keywords ('\'' :: text) offset cause := by
  unfold textLiteral at h
  obtain ⟨written, value, hdenotes, hbody⟩ := TextLiteral.body_cases text
  rcases hbody with ⟨rfl, hbody⟩ | ⟨behind, -, hbody⟩ | ⟨behind, rfl, hnone, hbody⟩ <;>
    rw [hbody] at h <;> cases h
  · exact .unterminated hdenotes
  · exact .badEscape hdenotes hnone

/-- A text of no known start has none of the shapes in front. -/
theorem not_scanned_of_find? {c : Char} (hdigit : c.isDigit = false) (hquote : c ≠ '\'')
    (hstart : Word.isStart c = false) (hfind : Symbol.find? (c :: text) = none) (l : Lexeme)
    (behind : List Char) (hl : l.Scanned keywords) : c :: text ≠ l.text.toList ++ behind := by
  intro htext
  cases hl with
  | @numeral whole hne hwhole =>
    rw [String.toList_ofList] at htext
    obtain ⟨d, more, rfl⟩ := List.exists_cons_of_ne_nil hne
    cases htext
    simp [hwhole c (by simp)] at hdigit
  | @fraction whole part hne hwhole =>
    rw [String.toList_ofList, List.append_assoc] at htext
    obtain ⟨d, more, rfl⟩ := List.exists_cons_of_ne_nil hne
    cases htext
    simp [hwhole c (by simp)] at hdigit
  | text =>
    rw [String.toList_ofList] at htext
    cases htext
    exact hquote rfl
  | @word word hword =>
    obtain ⟨⟨d, hd, hdstart⟩, -⟩ := hword
    obtain ⟨more, rfl⟩ : ∃ more, word = d :: more := ⟨_, List.eq_cons_of_mem_head? hd⟩
    rw [Word.lexeme_text, String.toList_ofList] at htext
    cases htext
    rw [hstart] at hdstart
    cases hdstart
  | @symbol spelling kind hmem =>
    rw [Symbol.lexeme, String.toList_ofList] at htext
    have hnone := List.find?_eq_none.mp hfind _ hmem
    rw [htext] at hnone
    simp at hnone

/-- Where no lexeme is found there is a flaw of one of the three kinds. -/
theorem flawed_of_ofText {cause : Cause} {offset : Nat}
    (h : ofText keywords text = flaw cause offset) : Flawed keywords text offset cause := by
  have hfinished : ofText keywords text ≠ finished := by simp [h]
  rw [ne_eq, ofText_eq_finished_iff, not_or] at hfinished
  cases text with
  | nil => cases h
  | cons c more =>
    simp only [ofText] at h
    split at h
    · cases h
    next hblank =>
    split at h
    · cases h
    split at h
    · simp only [number] at h
      split at h <;> cases h
    next hdigit =>
    split at h
    · next hquote =>
      subst hquote
      exact flawed_of_textLiteral h
    next hquote =>
    split at h
    · cases h
    next hstart =>
    unfold symbol at h
    split at h
    · cases h
    next hfind =>
    cases h
    rw [not_or] at hblank
    exact .unexpected hblank.1 hblank.2 hfinished.2
      (not_scanned_of_find? (by simpa using hdigit) hquote (by simpa using hstart) hfind)

end Lead

/-- A lexeme starts with no blank. -/
theorem Lexeme.Ends.head_not_blank {keywords : Keywords} {l : Lexeme} {rest : List Char}
    (h : l.Ends keywords rest) : ∀ c ∈ l.text.toList.head?, c ≠ ' ' ∧ c ≠ '\t' := by
  intro c hc
  have hlead := Lead.ofText_of_ends h
  obtain ⟨more, hchars⟩ : ∃ more, l.text.toList = c :: more := List.head?_eq_some_iff.mp hc
  rw [hchars, List.cons_append, Lead.ofText] at hlead
  rw [← not_or]
  intro hblank
  rw [if_pos hblank] at hlead
  cases hlead

/-- A line that starts with a lexeme is not indented. -/
theorem Lexeme.Ends.indentWidth_append {keywords : Keywords} {l : Lexeme} {rest : List Char}
    (h : l.Ends keywords rest) (more : List Char) :
    Line.indentWidth (l.text.toList ++ more) = 0 := by
  have hne := (Lead.split_of_ofText_eq_lexeme (Lead.ofText_of_ends h)).2
  obtain ⟨c, behind, hchars⟩ := List.exists_cons_of_ne_nil hne
  obtain ⟨hspace, htab⟩ := h.head_not_blank c (by simp [hchars])
  rw [hchars, List.cons_append, Line.indentWidth, if_neg hspace, if_neg htab]

end Slick
