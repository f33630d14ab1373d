import Slick.Text.Lines
import Slick.Token.Lead

/-!
# Tokens of one line

A line is read lexeme by lexeme from its first column on. The reading ends at the end of
the line, at a comment, or at the first character that starts no lexeme. Beside the tokens
a line has two measures for layout: the width of its leading blanks, and the number of
brackets that are open behind it.
-/

namespace Slick.Line

/-- Reads the tokens of a text that starts at the given column, looking at no more than `fuel`
pieces. A piece has at least one character, so the length of the text is fuel enough. -/
def scanFrom (keywords : Keywords) (path : Option String) (line : Nat) :
    (fuel column : Nat) → List Char → Except Flaw (List Token)
  | 0, _, _ => .ok []
  | fuel + 1, column, text =>
    match Lead.ofText keywords text with
    | .finished => .ok []
    | .blank rest => scanFrom keywords path line fuel (column + 1) rest
    | .lexeme lexeme rest =>
      (scanFrom keywords path line fuel (column + lexeme.text.length) rest).map
        (lexeme.place line column :: ·)
    | .flaw cause offset => .error ⟨⟨⟨line, column + offset⟩, path⟩, cause⟩

/-- The tokens of a text that starts at the given column of a line. -/
def scanAt (keywords : Keywords) (path : Option String) (line column : Nat) (text : List Char) :
    Except Flaw (List Token) :=
  scanFrom keywords path line text.length column text

/-- The tokens of a line. -/
def scan (keywords : Keywords) (path : Option String) (line : Nat) (text : List Char) :
    Except Flaw (List Token) :=
  scanAt keywords path line 1 text

/-- The width of the leading blanks: a space counts one, a tab four. -/
def indentWidth : List Char → Nat
  | [] => 0
  | c :: rest =>
    if c = ' ' then indentWidth rest + 1
    else if c = '\t' then indentWidth rest + 4
    else 0

/-- The number of open brackets behind one more token. A closing bracket with none open counts
for nothing. -/
def depthStep (depth : Nat) (kind : Kind) : Nat :=
  if kind.isOpener then depth + 1
  else if kind.isCloser then depth - 1
  else depth

/-- The number of open brackets behind some tokens. -/
def depthAfter (depth : Nat) (tokens : List Token) : Nat :=
  tokens.foldl (fun depth token => depthStep depth token.kind) depth

private theorem scanFrom_fuel (keywords : Keywords) (path : Option String) (line : Nat)
    {fuel : Nat} :
    ∀ {column : Nat} {text : List Char}, text.length ≤ fuel →
      scanFrom keywords path line fuel column text =
        scanFrom keywords path line (fuel + 1) column text := by
  induction fuel with
  | zero =>
    intro column text h
    obtain rfl : text = [] := by simpa using h
    rfl
  | succ fuel ih =>
    intro column text h
    rw [scanFrom, scanFrom]
    split
    · rfl
    · next rest hlead =>
      obtain ⟨c, _, rfl⟩ := Lead.split_of_ofText_eq_blank hlead
      exact ih (by simpa using h)
    · next lexeme rest hlead =>
      obtain ⟨rfl, hne⟩ := Lead.split_of_ofText_eq_lexeme hlead
      have : 0 < lexeme.text.toList.length := List.length_pos_iff.mpr hne
      rw [ih (by simp only [List.length_append] at h; omega)]
    · rfl

private theorem scanFrom_eq_of_le (keywords : Keywords) (path : Option String) (line : Nat)
    {fuel column : Nat} {text : List Char} (h : text.length ≤ fuel) :
    scanFrom keywords path line fuel column text = scanAt keywords path line column text := by
  induction fuel with
  | zero =>
    obtain rfl : text = [] := by simpa using h
    rfl
  | succ fuel ih =>
    obtain h | h := Nat.lt_or_eq_of_le h
    · rw [← scanFrom_fuel keywords path line (by omega), ih (by omega)]
    · rw [scanAt, h]

/-- Reading a text reads its first piece and then the rest. -/
theorem scanAt_eq (keywords : Keywords) (path : Option String) (line column : Nat)
    (text : List Char) :
    scanAt keywords path line column text =
      match Lead.ofText keywords text with
      | .finished => .ok []
      | .blank rest => scanAt keywords path line (column + 1) rest
      | .lexeme lexeme rest =>
        (scanAt keywords path line (column + lexeme.text.length) rest).map
          (lexeme.place line column :: ·)
      | .flaw cause offset => .error ⟨⟨⟨line, column + offset⟩, path⟩, cause⟩ := by
  rw [scanAt, scanFrom_fuel keywords path line (Nat.le_refl _), scanFrom]
  split
  · rfl
  · next rest hlead =>
    obtain ⟨c, _, rfl⟩ := Lead.split_of_ofText_eq_blank hlead
    exact scanFrom_eq_of_le keywords path line (by simp)
  · next lexeme rest hlead =>
    obtain ⟨rfl, _⟩ := Lead.split_of_ofText_eq_lexeme hlead
    rw [scanFrom_eq_of_le keywords path line (by simp)]
  · rfl

end Slick.Line
