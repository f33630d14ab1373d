import Slick.Text.Capitals
import Slick.Text.Letters
import Slick.Text.Numerals
import Slick.Token

/-!
# Words

A word is a letter or an underscore followed by letters, numerals and underscores of any
script, except that the function sign `ƒ` is never part of a word. The set of reserved
words is a parameter: it decides only how a word is classified, never where it ends.
-/

namespace Slick

/-- The reserved words. -/
abbrev Keywords := List String

/-- The reserved words of the language. -/
def Keywords.standard : Keywords :=
  ["type", "if", "then", "else", "case", "of", "fn", "and", "or", "True", "False"]

namespace Word

/-- The sign that introduces a function. -/
def functionSign : Char := 'ƒ'

/-- Characters that start a word. -/
def isStart (c : Char) : Bool :=
  (Text.isLetter c || c == '_') && c != functionSign

/-- Characters that continue a word. -/
def isPart (c : Char) : Bool :=
  (Text.isLetter c || Text.isNumeral c || c == '_') && c != functionSign

/-- Whether a word starts with a capital, as names of types do. -/
def isCapitalized : List Char → Bool
  | [] => false
  | c :: _ => Text.isCapital c

/-- A word as a lexeme. The function word and the truth values need not be reserved. -/
def lexeme (keywords : Keywords) (word : List Char) : Lexeme :=
  let text := String.ofList word
  if text = "fn" then ⟨.fn, text, .nothing⟩
  else if text = "True" then ⟨.keyword, text, .bool true⟩
  else if text = "False" then ⟨.keyword, text, .bool false⟩
  else if text ∈ keywords then ⟨.keyword, text, .text text⟩
  else if isCapitalized word then ⟨.uident, text, .text text⟩
  else ⟨.ident, text, .text text⟩

/-- What may start a word may stand in it. -/
theorem isPart_of_isStart {c : Char} (h : isStart c = true) : isPart c = true := by
  simp only [isStart, isPart, Bool.and_eq_true, Bool.or_eq_true] at h ⊢
  obtain ⟨hletter | hunderscore, hsign⟩ := h
  · exact ⟨.inl (.inl hletter), hsign⟩
  · exact ⟨.inr hunderscore, hsign⟩

/-- A word is spelled as it is written. -/
@[simp] theorem lexeme_text (keywords : Keywords) (word : List Char) :
    (lexeme keywords word).text = String.ofList word := by
  simp only [lexeme]
  repeat' split
  all_goals rfl

end Word

end Slick
