import Slick.Error
import Slick.Token.Symbol
import Slick.Token.Word

/-!
# The lexeme at the start of a text

Blanks separate lexemes and a double minus starts a comment. Otherwise the first character
decides what is read: a numeral, a text literal, a word or a symbol, each as long as
possible. Main statements: a lexeme and what follows it make up the text, and a lexeme is
never empty.
-/

namespace Slick

/-- What a text starts with. -/
inductive Lead where
  /-- Nothing, or a comment up to the end of the line. -/
  | finished
  | blank (rest : List Char)
  | lexeme (lexeme : Lexeme) (rest : List Char)
  /-- No lexeme starts here. The flaw lies behind the given number of characters. -/
  | flaw (cause : Cause) (offset : Nat)
  deriving Repr

namespace Lead

/-- The fraction behind a run of digits: a point with at least one digit behind it. -/
def fraction : List Char → Option (List Char × List Char)
  | '.' :: d :: rest =>
    if d.isDigit then some ((d :: rest).takeWhile Char.isDigit, (d :: rest).dropWhile Char.isDigit)
    else none
  | _ => none

/-- Reads a numeral: digits with at most one fraction. A point with no digit behind it is left
alone. -/
def number (text : List Char) : Lead :=
  let whole := text.takeWhile Char.isDigit
  let behind := text.dropWhile Char.isDigit
  match fraction behind with
  | none => lexeme ⟨.number, String.ofList whole, .decimal (.ofNumeral whole [])⟩ behind
  | some (part, rest) =>
    lexeme ⟨.number, String.ofList (whole ++ '.' :: part), .decimal (.ofNumeral whole part)⟩ rest

/-- Reads a text literal from behind its opening quote. -/
def textLiteral (text : List Char) : Lead :=
  match TextLiteral.body text with
  | .closed value written rest =>
    lexeme ⟨.text, String.ofList ('\'' :: (written ++ ['\''])), .text (String.ofList value)⟩ rest
  | .unterminated => flaw .unterminatedText 0
  | .badEscape offset => flaw .invalidEscape (offset + 1)

/-- Reads a word. -/
def word (keywords : Keywords) (text : List Char) : Lead :=
  lexeme (Word.lexeme keywords (text.takeWhile Word.isPart)) (text.dropWhile Word.isPart)

/-- Reads a symbol. -/
def symbol (first : Char) (text : List Char) : Lead :=
  match Symbol.find? text with
  | some (spelling, kind) => lexeme (Symbol.lexeme spelling kind) (text.drop spelling.length)
  | none => flaw (.unexpectedCharacter first) 0

/-- What a text starts with. -/
def ofText (keywords : Keywords) : List Char → Lead
  | [] => finished
  | c :: rest =>
    if c = ' ' ∨ c = '\t' then blank rest
    else if c = '-' ∧ rest.head? = some '-' then finished
    else if c.isDigit then number (c :: rest)
    else if c = '\'' then textLiteral rest
    else if Word.isStart c then word keywords (c :: rest)
    else symbol c (c :: rest)

private theorem fraction_eq_some {text part rest : List Char}
    (h : fraction text = some (part, rest)) :
    text = '.' :: (part ++ rest) ∧ part ≠ [] := by
  unfold fraction at h
  split at h
  · split at h
    · next d more hd =>
      simp only [Option.some.injEq, Prod.mk.injEq] at h
      obtain ⟨rfl, rfl⟩ := h
      simp [hd]
    · simp at h
  · simp at h

private theorem number_split {c : Char} {text : List Char} {l : Lexeme} {rest : List Char}
    (hc : c.isDigit = true) (h : number (c :: text) = lexeme l rest) :
    c :: text = l.text.toList ++ rest ∧ l.text.toList ≠ [] := by
  have hsplit := List.takeWhile_append_dropWhile (p := Char.isDigit) (l := c :: text)
  have hne : (c :: text).takeWhile Char.isDigit ≠ [] := by simp [hc]
  simp only [number] at h
  split at h
  · simp only [lexeme.injEq] at h
    obtain ⟨rfl, rfl⟩ := h
    exact ⟨by simp, by simpa using hne⟩
  · next part more hpart =>
    simp only [lexeme.injEq] at h
    obtain ⟨rfl, rfl⟩ := h
    obtain ⟨hbehind, _⟩ := fraction_eq_some hpart
    refine ⟨?_, by simp⟩
    rw [hbehind] at hsplit
    simpa using hsplit.symm

private theorem textLiteral_split {text : List Char} {l : Lexeme} {rest : List Char}
    (h : textLiteral text = lexeme l rest) :
    '\'' :: text = l.text.toList ++ rest ∧ l.text.toList ≠ [] := by
  unfold textLiteral at h
  split at h
  · next value written more hbody =>
    simp only [lexeme.injEq] at h
    obtain ⟨rfl, rfl⟩ := h
    simp [TextLiteral.written_of_body_closed hbody]
  · simp at h
  · simp at h

private theorem word_split {keywords : Keywords} {c : Char} {text : List Char} {l : Lexeme}
    {rest : List Char} (hc : Word.isStart c = true)
    (h : word keywords (c :: text) = lexeme l rest) :
    c :: text = l.text.toList ++ rest ∧ l.text.toList ≠ [] := by
  simp only [word, lexeme.injEq] at h
  obtain ⟨rfl, rfl⟩ := h
  exact ⟨by simp, by simp [Word.isPart_of_isStart hc]⟩

private theorem symbol_split {c : Char} {text : List Char} {l : Lexeme} {rest : List Char}
    (h : symbol c text = lexeme l rest) : text = l.text.toList ++ rest ∧ l.text.toList ≠ [] := by
  unfold symbol at h
  split at h
  · next spelling kind hfind =>
    simp only [lexeme.injEq] at h
    obtain ⟨rfl, rfl⟩ := h
    have hstart : spelling.isPrefixOf text = true := by
      simpa using List.find?_some hfind
    obtain ⟨more, rfl⟩ := List.isPrefixOf_iff_prefix.mp hstart
    have hne := Symbol.spelling_ne_nil (spelling, kind) (List.mem_of_find?_eq_some hfind)
    simpa [Symbol.lexeme] using hne
  · simp at h

/-- A lexeme and what follows it make up the text, and the lexeme is not empty. -/
theorem split_of_ofText_eq_lexeme {keywords : Keywords} {text rest : List Char} {l : Lexeme}
    (h : ofText keywords text = lexeme l rest) :
    text = l.text.toList ++ rest ∧ l.text.toList ≠ [] := by
  cases text with
  | nil => simp [ofText] at h
  | cons c text =>
    simp only [ofText] at h
    split at h
    · simp at h
    · split at h
      · simp at h
      · split at h
        · next hdigit => exact number_split hdigit h
        · split at h
          · next hquote => subst hquote; exact textLiteral_split h
          · split at h
            · next hstart => exact word_split hstart h
            · exact symbol_split h

/-- A blank is one space or tab. -/
theorem split_of_ofText_eq_blank {keywords : Keywords} {text rest : List Char}
    (h : ofText keywords text = blank rest) :
    ∃ c, (c = ' ' ∨ c = '\t') ∧ text = c :: rest := by
  cases text with
  | nil => simp [ofText] at h
  | cons c text =>
    simp only [ofText] at h
    split at h
    · next hc =>
      simp only [blank.injEq] at h
      exact ⟨c, hc, by rw [h]⟩
    · exfalso
      revert h
      simp only [number, textLiteral, word, symbol]
      repeat' split
      all_goals simp

end Lead

end Slick
