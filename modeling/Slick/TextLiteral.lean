/-!
# Text literals

A text literal stands between single quotes. A backslash escapes the quote and the
backslash themselves, and with the letters `n` and `t` it stands for a line feed and a tab.
Main statement: reading what writing produces gives the text back and stops right behind
the closing quote.
-/

namespace Slick.TextLiteral

/-- The character that an escape with the given letter stands for. -/
def unescape? (letter : Char) : Option Char :=
  if letter = '\'' then some '\''
  else if letter = '\\' then some '\\'
  else if letter = 'n' then some '\n'
  else if letter = 't' then some '\t'
  else none

/-- One character as it is written inside a literal. -/
def encodeChar (c : Char) : List Char :=
  if c = '\\' then ['\\', '\\']
  else if c = '\'' then ['\\', '\'']
  else if c = '\n' then ['\\', 'n']
  else if c = '\t' then ['\\', 't']
  else [c]

/-- A text as a literal. -/
def encode (text : List Char) : List Char :=
  '\'' :: (text.flatMap encodeChar ++ ['\''])

/-- What stands behind an opening quote. -/
inductive Body where
  /-- The text that the literal denotes, the characters it is written with up to the closing
  quote, and what follows that quote. -/
  | closed (value written rest : List Char)
  | unterminated
  /-- A backslash without a known escape, behind the given number of characters. -/
  | badEscape (offset : Nat)
  deriving DecidableEq, Repr

/-- The body with one more character in front. -/
def Body.push (written : List Char) (c : Char) : Body → Body
  | closed value more rest => closed (c :: value) (written ++ more) rest
  | unterminated => unterminated
  | badEscape offset => badEscape (written.length + offset)

/-- Reads a literal from behind its opening quote. -/
def body : List Char → Body
  | [] => .unterminated
  | c :: rest =>
    if c = '\'' then .closed [] [] rest
    else if c = '\\' then
      match rest with
      | [] => .badEscape 0
      | letter :: more =>
        match unescape? letter with
        | none => .badEscape 0
        | some meant => (body more).push [c, letter] meant
    else (body rest).push [c] c

/-- A quote closes a text literal. -/
@[simp] theorem body_quote (rest : List Char) : body ('\'' :: rest) = .closed [] [] rest := by
  rw [body.eq_def]
  simp

/-- A character that is neither a quote nor a backslash stands for itself. -/
theorem body_plain {c : Char} (hquote : c ≠ '\'') (hslash : c ≠ '\\') (rest : List Char) :
    body (c :: rest) = (body rest).push [c] c := by
  rw [body.eq_def]
  simp [hquote, hslash]

/-- A backslash with a letter stands for the character that it means. -/
theorem body_escape {letter meant : Char} (h : unescape? letter = some meant) (rest : List Char) :
    body ('\\' :: letter :: rest) = (body rest).push ['\\', letter] meant := by
  rw [body.eq_def]
  simp [h]

/-- One written character is read back in front of what follows it. -/
theorem body_encodeChar (c : Char) (rest : List Char) :
    body (encodeChar c ++ rest) = (body rest).push (encodeChar c) c := by
  unfold encodeChar
  split
  · next hc => subst hc; exact body_escape rfl rest
  · split
    · next hc => subst hc; exact body_escape rfl rest
    · split
      · next hc => subst hc; exact body_escape rfl rest
      · split
        · next hc => subst hc; exact body_escape rfl rest
        · next hslash hquote _ _ => exact body_plain hquote hslash rest

/-- Reading a written text gives it back. -/
theorem body_encode (text rest : List Char) :
    body (text.flatMap encodeChar ++ '\'' :: rest) =
      .closed text (text.flatMap encodeChar) rest := by
  induction text with
  | nil => exact body_quote rest
  | cons c text ih =>
    simp only [List.flatMap_cons, List.append_assoc, body_encodeChar, ih, Body.push]

private theorem push_eq_closed_iff {before : Body} {front value written rest : List Char}
    {c : Char} :
    before.push front c = .closed value written rest ↔
      ∃ v w, before = .closed v w rest ∧ value = c :: v ∧ written = front ++ w := by
  cases before with
  | closed v w r =>
    simp only [Body.push, Body.closed.injEq]
    constructor
    · rintro ⟨rfl, rfl, rfl⟩
      exact ⟨v, w, ⟨rfl, rfl, rfl⟩, rfl, rfl⟩
    · rintro ⟨_, _, ⟨rfl, rfl, rfl⟩, rfl, rfl⟩
      exact ⟨rfl, rfl, rfl⟩
  | unterminated => simp [Body.push]
  | badEscape n => simp [Body.push]

/-- A closed body and its quote are what was read. -/
theorem written_of_body_closed {input value written rest : List Char}
    (h : body input = .closed value written rest) : input = written ++ '\'' :: rest := by
  fun_induction body input generalizing value written with
  | case1 => simp at h
  | case2 => simp at h; simp [h]
  | case3 => simp at h
  | case4 => simp at h
  | case5 letter more meant _ _ ih =>
    obtain ⟨v, w, hbody, rfl, rfl⟩ := push_eq_closed_iff.mp h
    simp [ih hbody]
  | case6 c rest' _ _ ih =>
    obtain ⟨v, w, hbody, rfl, rfl⟩ := push_eq_closed_iff.mp h
    simp [ih hbody]

end Slick.TextLiteral
